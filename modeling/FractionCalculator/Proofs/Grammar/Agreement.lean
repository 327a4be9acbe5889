import FractionCalculator.Proofs.Grammar.Descent
import FractionCalculator.Proofs.Grammar.Progress
import FractionCalculator.Proofs.Grammar.Relocation
import FractionCalculator.Proofs.Listing

/-!
The walk through the text and the parser of lexemes agree. At every place of a text and at every depth,
each level finds the expression that is found from the lexemes left there, or makes the same refusal.
-/

namespace FractionCalculator

def Refusal.complaint (refusal : Refusal) : Complaint := ⟨refusal.expected.text, refusal.found⟩

def Lexeme.glance (lexeme : Lexeme) : Token :=
  match lexeme with
  | .operator _ => ⟨.operator, lexeme.lead⟩
  | .opening | .closing => ⟨.parenthesis, lexeme.lead⟩
  | .number _ => ⟨.number, lexeme.lead⟩
  | .name _ | .unknown _ => ⟨.functionName, lexeme.lead⟩

theorem Lexeme.glance_text (lexeme : Lexeme) : lexeme.glance.text = lexeme.lead := by
  cases lexeme <;> rfl

namespace Cursor.Ahead

variable {cursor : Cursor} {blanks run rest : List Char} {first : Char}
  (ahead : cursor.Ahead blanks first run rest)

include ahead

theorem lead : (Lexeme.leading first run).lead = String.singleton first := by
  rw [Lexeme.lead, toList_text_run ahead.goesOn]
  rfl

theorem glance : (Lexeme.leading first run).glance = .ofCharacter (kindSeen first) first := by
  have lead := ahead.lead
  have recognised := ahead.recognised
  generalize Lexeme.leading first run = lexeme at lead recognised
  have kind : lexeme.glance.kind = kindSeen first := by
    cases recognised with
    | operator sign => cases sign <;> rfl
    | opening | closing => rfl
    | number digit => exact (kindSeen_digit digit).symm
    | name letter => exact (kindSeen_letter letter).symm
    | unknown unknown => exact (kindSeen_unknown unknown).symm
  rw [Token.ofCharacter, ← kind, ← lead, ← lexeme.glance_text]

end Cursor.Ahead

namespace Descent

structure AtEnd (descent : Descent) : Prop where
  lexemes : descent.cursor.lexemes = []
  peek : descent.peek = none
  nextCharacter? : descent.cursor.nextCharacter? = none
  consume : descent.consume.1 = none

structure Faces (descent : Descent) (located : Located) : Prop where
  lexemes : descent.cursor.lexemes = located :: descent.consume.2.cursor.lexemes
  peek : descent.peek = some located.lexeme.glance
  nextCharacter? : descent.cursor.nextCharacter? = located.lexeme.text.toList.head?
  nextPosition : descent.nextPosition = located.start
  consume : descent.consume.1 = located.lexeme.token?

theorem atEnd_or_faces (descent : Descent) : descent.AtEnd ∨ ∃ located, descent.Faces located := by
  rcases descent.cursor.blank_or_ahead with blank | ⟨blanks, first, run, rest, ahead⟩
  · left
    constructor
    case lexemes => exact Cursor.lexemes_of_blanks blank _
    case peek => exact (Cursor.peek_eq_none_iff _).mpr blank
    case nextCharacter? => exact (Cursor.nextCharacter?_eq_none_iff _).mpr blank
    case consume => exact congrArg Prod.fst (Cursor.consume_of_blank blank)
  · refine .inr ⟨⟨descent.cursor.position + blanks.length, .leading first run⟩, ?_⟩
    constructor
    case lexemes =>
      rw [Cursor.lexemes_of_read_some ahead.read]
      exact congrArg _ (congrArg (fun result => result.2.lexemes) ahead.consume).symm
    case peek => exact ahead.peek.trans (congrArg some ahead.glance.symm)
    case nextCharacter? =>
      rw [ahead.nextCharacter?, toList_text_run ahead.goesOn, List.head?_cons]
    case nextPosition => exact ahead.nextPosition
    case consume => exact ahead.consume_token

theorem AtEnd.onNoToken {descent : Descent} (atEnd : descent.AtEnd) (expected : Expectation)
    (position : Nat) :
    Complaint.onNoToken expected.text descent.cursor.nextCharacter? position =
      (Refusal.atEnd expected).complaint := by
  rw [atEnd.nextCharacter?]
  rfl

theorem Faces.onFinding {descent : Descent} {located : Located} (faces : descent.Faces located)
    (expected : Expectation) :
    Complaint.onFinding expected.text located.lexeme.text descent.nextPosition =
      (Refusal.onReading expected located).complaint := by
  rw [faces.nextPosition]
  rfl

theorem Faces.onSight {descent : Descent} {located : Located} (faces : descent.Faces located)
    (expected : Expectation) :
    Complaint.onFinding expected.text located.lexeme.glance.text descent.nextPosition =
      (Refusal.onSight expected located).complaint := by
  rw [faces.nextPosition, Lexeme.glance_text]
  rfl

theorem Faces.onNoToken {descent : Descent} {start : Nat} {character : Char}
    (faces : descent.Faces ⟨start, .unknown character⟩) (expected : Expectation) :
    Complaint.onNoToken expected.text descent.cursor.nextCharacter? descent.nextPosition =
      (Refusal.onReading expected ⟨start, .unknown character⟩).complaint := by
  have seen : descent.cursor.nextCharacter? = some character := by
    simp [faces.nextCharacter?, Lexeme.text]
  rw [seen, faces.nextPosition]
  rfl

def Agrees (result : Except Complaint Expression) (next : Descent) : Except Refusal Parsed → Prop
  | .ok parsed => result = .ok parsed.expression ∧ next.cursor.lexemes = parsed.rest
  | .error refusal => result = .error refusal.complaint

/-- A level returns what the parser of lexemes returns, and with as many parentheses open as when it
was called. -/
structure Return.Matches {descent : Descent} (returned : Return descent)
    (expected : Except Refusal Parsed) : Prop where
  depth : returned.next.depth = descent.depth
  deepest : returned.next.deepest ≤ max descent.deepest maximumNesting
  agrees : Agrees returned.result returned.next expected

namespace Return.Matches

theorem behind {descent later : Descent} {returned : Return later}
    {expected : Except Refusal Parsed} (same : returned.Matches expected)
    (reaches : descent.cursor.Reaches later.cursor) (depth : later.depth = descent.depth)
    (deepest : later.deepest ≤ max descent.deepest maximumNesting) :
    (returned.behind reaches).Matches expected :=
  ⟨same.depth.trans depth, same.deepest.trans (max_le deepest (le_max_right _ _)), same.agrees⟩

variable {descent : Descent} {returned : Return descent}

theorem result_of_error {refusal : Refusal} (same : returned.Matches (.error refusal)) :
    returned.result = .error refusal.complaint :=
  same.agrees

theorem result_of_ok {parsed : Parsed} (same : returned.Matches (.ok parsed)) :
    returned.result = .ok parsed.expression :=
  same.agrees.1

theorem lexemes_of_ok {parsed : Parsed} (same : returned.Matches (.ok parsed)) :
    returned.next.cursor.lexemes = parsed.rest :=
  same.agrees.2

theorem map {expected : Except Refusal Parsed} (change : Expression → Expression) :
    returned.Matches expected →
    (⟨returned.result.map change, returned.next, returned.reaches⟩ : Return descent).Matches
      (match expected with
        | .error refusal => .error refusal
        | .ok parsed => .ok ⟨change parsed.expression, parsed.rest⟩) := by
  intro same
  refine ⟨same.depth, same.deepest, ?_⟩
  cases expected with
  | error refusal => rw [same.result_of_error]; rfl
  | ok parsed => exact ⟨by rw [same.result_of_ok]; rfl, same.lexemes_of_ok⟩

end Return.Matches

def grouping (descent : Descent) : Grouping :=
  Expression.nested (maximumNesting - descent.depth)

def Inside.Simulates {bound : Nat} (inside : Inside bound) : Prop :=
  ∀ descent within,
    (inside descent within).Matches (Expression.sum descent.grouping descent.cursor.lexemes)

theorem grouping_of_full {descent : Descent} (full : maximumNesting ≤ descent.depth) :
    descent.grouping = Expression.nested 0 := by
  rw [grouping, Nat.sub_eq_zero_of_le full]

theorem grouping_of_room {descent : Descent} (room : descent.depth < maximumNesting)
    (start : Nat) (lexemes : List Located) :
    descent.grouping.read start lexemes = Expression.enclosed descent.enter.grouping lexemes := by
  have more : maximumNesting - descent.depth = maximumNesting - descent.enter.depth + 1 := by
    simp only [enter]
    omega
  rw [grouping, more]
  rfl

theorem closed_matches {descent : Descent} (room : descent.depth < maximumNesting)
    {sum : Return descent.enter} {grouping : Grouping} {lexemes : List Located}
    (same : sum.Matches (Expression.sum grouping lexemes)) :
    (closed sum).Matches (Expression.enclosed grouping lexemes) := by
  have depth : sum.next.leave.depth = descent.depth := by
    rw [leave, same.depth]
    exact Nat.add_sub_cancel _ _
  have deepest : sum.next.leave.deepest ≤ max descent.deepest maximumNesting := by
    have bounded := same.deepest
    simp only [enter, leave] at bounded ⊢
    omega
  unfold closed Expression.enclosed
  cases read : Expression.sum grouping lexemes with
  | error refusal =>
      rw [read] at same
      simp only [same.result_of_error]
      exact ⟨depth, deepest, rfl⟩
  | ok parsed =>
      rw [read] at same
      have rest : sum.next.leave.cursor.lexemes = parsed.rest := same.lexemes_of_ok
      simp only [same.result_of_ok]
      rcases sum.next.leave.atEnd_or_faces with atEnd | ⟨located, faces⟩
      · rw [atEnd.lexemes] at rest
        simp only [atEnd.peek, ← rest]
        exact ⟨depth, deepest, rfl⟩
      · rw [faces.lexemes] at rest
        -- A sum ends at a closing parenthesis, so the parenthesis is closed here.
        have isClosing : located.lexeme = .closing :=
          Expression.sum_ends read located.lexeme (by rw [← rest]; rfl)
        simp only [faces.peek, ← rest, isClosing]
        exact ⟨depth, deepest, rfl, rfl⟩

section Levels

variable {bound : Nat} {inside : Inside bound}

theorem group_matches (simulates : inside.Simulates) {descent : Descent}
    (within : descent.left < bound) (start : Nat) :
    (group inside descent within (.ofCharacter .parenthesis '(') start).Matches
      (descent.grouping.read start descent.cursor.lexemes) := by
  have opens : (Token.ofCharacter .parenthesis '(').isSymbol '(' = true := by decide
  rw [group, if_pos opens]
  by_cases full : maximumNesting ≤ descent.depth
  · rw [if_pos full, grouping_of_full full]
    exact ⟨rfl, le_max_left _ _, rfl⟩
  · have room : descent.depth < maximumNesting := Nat.lt_of_not_le full
    rw [if_neg full, grouping_of_room room]
    exact closed_matches room (simulates descent.enter within)

theorem negation_matches (simulates : inside.Simulates) {descent : Descent}
    (within : descent.left < bound) (start : Nat) :
    (negation inside descent within (.ofCharacter .operator '-') start).Matches
      (Expression.negated descent.grouping descent.cursor.lexemes) := by
  have negates : (Token.ofCharacter .operator '-').isSymbol '-' = true := by decide
  rw [negation, if_pos negates]
  rcases descent.atEnd_or_faces with atEnd | ⟨located, faces⟩
  · simp only [atEnd.consume, atEnd.lexemes, atEnd.onNoToken]
    exact ⟨rfl, le_max_left _ _, rfl⟩
  · obtain ⟨place, lexeme⟩ := located
    rw [faces.lexemes]
    cases lexeme with
    | number digits =>
        simp only [faces.consume, Lexeme.token?, Expression.negated]
        exact ⟨rfl, le_max_left _ _, rfl, rfl⟩
    | opening =>
        have grouped := group_matches simulates
          (Nat.lt_of_le_of_lt descent.consume_left_le within) place
        simp only [faces.consume, faces.nextPosition, Lexeme.token?, Expression.negated]
        exact (grouped.behind descent.reaches_consume rfl (le_max_left _ _)).map _
    | closing | operator sign | name letters =>
        simp only [faces.consume, Lexeme.token?, Expression.negated]
        exact ⟨rfl, le_max_left _ _, congrArg _ (faces.onFinding _)⟩
    | unknown character =>
        simp only [faces.consume, Lexeme.token?, Expression.negated]
        exact ⟨rfl, le_max_left _ _, congrArg _ (faces.onNoToken _)⟩

theorem primaryWith_matches (simulates : inside.Simulates) {descent : Descent}
    (within : descent.left ≤ bound) :
    (primaryWith inside descent within).Matches
      (Expression.primary descent.grouping descent.cursor.lexemes) := by
  rcases descent.atEnd_or_faces with atEnd | ⟨⟨place, lexeme⟩, faces⟩
  · rw [primaryWith_of_none inside within atEnd.consume, atEnd.lexemes]
    exact ⟨rfl, le_max_left _ _, congrArg _ (atEnd.onNoToken _ _)⟩
  · rw [faces.lexemes]
    cases lexeme with
    | unknown character =>
        rw [primaryWith_of_none inside within faces.consume]
        exact ⟨rfl, le_max_left _ _, congrArg _ (faces.onNoToken _)⟩
    | number digits =>
        rw [primaryWith_of_some inside within faces.consume]
        exact ⟨rfl, le_max_left _ _, rfl, rfl⟩
    | opening =>
        have shorter := Nat.lt_of_lt_of_le (consume_left_lt faces.consume) within
        have grouped := group_matches simulates shorter place
        rw [primaryWith_of_some inside within faces.consume]
        simp only [faces.nextPosition]
        exact grouped.behind descent.reaches_consume rfl (le_max_left _ _)
    | closing | name letters =>
        rw [primaryWith_of_some inside within faces.consume]
        exact ⟨rfl, le_max_left _ _, congrArg _ (faces.onFinding _)⟩
    | operator sign =>
        rw [primaryWith_of_some inside within faces.consume]
        cases sign with
        | subtract =>
            have shorter := Nat.lt_of_lt_of_le (consume_left_lt faces.consume) within
            have negated := negation_matches simulates shorter place
            simp only [faces.nextPosition]
            exact negated.behind descent.reaches_consume rfl (le_max_left _ _)
        | add | multiply | divide =>
            exact ⟨rfl, le_max_left _ _, congrArg _ (faces.onFinding _)⟩

end Levels

def Level.Simulates {bound : Nat} (level : Level bound) (depth : Nat)
    (reads : List Located → Except Refusal Parsed) : Prop :=
  ∀ descent within, descent.depth = depth →
    (level.read descent within).Matches (reads descent.cursor.lexemes)

def Behind (reads : List Located → Except Refusal Parsed) (descent : Descent) : Prop :=
  ∃ lexemes parsed, reads lexemes = .ok parsed ∧ descent.cursor.lexemes = parsed.rest

inductive Link.Leads (reads : List Located → Except Refusal Parsed)
    (loop : Expression → List Located → Except Refusal Parsed) (descent : Descent) :
    Link descent → Prop
  | ends (stops : ∀ left, loop left descent.cursor.lexemes = .ok ⟨left, descent.cursor.lexemes⟩) :
      Leads reads loop descent .ends
  | refused {complaint : Complaint} {reaches : descent.cursor.Reaches descent.cursor}
      (refusal : Refusal) (same : complaint = refusal.complaint)
      (stops : ∀ left, loop left descent.cursor.lexemes = .error refusal) :
      Leads reads loop descent (.refused complaint descent reaches)
  | sign {token : Token} {cursor : Cursor} {reaches : descent.cursor.Reaches cursor}
      (sign : Operator) (written : token.symbol?.bind Operator.ofSymbol? = some sign)
      (goesOn : ∀ left, loop left descent.cursor.lexemes =
        match reads cursor.lexemes with
        | .error refusal => .error refusal
        | .ok right => loop (.binary sign left right.expression) right.rest) :
      Leads reads loop descent (.sign token { descent with cursor := cursor } reaches)

section Chain

variable {bound depth : Nat} {link : (descent : Descent) → Link descent} {operand : Level bound}
  {reads : List Located → Except Refusal Parsed}
  {loop : Expression → List Located → Except Refusal Parsed}

theorem chainFrom_matches (simulates : operand.Simulates depth reads)
    (leads : ∀ descent, Behind reads descent → (link descent).Leads reads loop descent)
    (left : Expression) (descent : Descent) (within : descent.left ≤ bound)
    (sameDepth : descent.depth = depth) (behind : Behind reads descent) :
    (chainFrom link operand left descent within).Matches (loop left descent.cursor.lexemes) := by
  have next := leads descent behind
  rw [chainFrom]
  generalize link descent = found at next
  cases next with
  | ends stops =>
      rw [stops]
      exact ⟨rfl, le_max_left _ _, rfl, rfl⟩
  | refused refusal same stops =>
      rw [stops]
      exact ⟨rfl, le_max_left _ _, congrArg _ same⟩
  | @sign token cursor reaches sign written goesOn =>
      have within : ({ descent with cursor := cursor } : Descent).left ≤ bound :=
        Nat.le_trans reaches.length_le within
      have right := simulates { descent with cursor := cursor } within sameDepth
      rw [goesOn]
      dsimp only
      cases read : reads cursor.lexemes with
      | error refusal =>
          rw [read] at right
          split
          · rename_i failed
            rw [right.result_of_error] at failed
            cases failed
            exact ⟨right.depth, right.deepest, rfl⟩
          · rename_i found
            simp [right.result_of_error] at found
      | ok parsed =>
          rw [read] at right
          split
          · rename_i failed
            simp [right.result_of_ok] at failed
          · rename_i found
            -- Less is left behind the operand, which is what the induction is on.
            have shorter := Nat.lt_of_lt_of_le (operand.advances found) reaches.length_le
            rw [right.result_of_ok] at found
            cases found
            simp only [joined, written]
            have rest := chainFrom_matches simulates leads
              (.binary sign left parsed.expression) _ (Nat.le_trans (Return.left_le _) within)
              (right.depth.trans sameDepth) ⟨_, parsed, read, right.lexemes_of_ok⟩
            rw [right.lexemes_of_ok] at rest
            exact rest.behind _ right.depth right.deepest
termination_by descent.left

theorem chain_simulates (simulates : operand.Simulates depth reads)
    (leads : ∀ descent, Behind reads descent → (link descent).Leads reads loop descent) :
    (chain link operand).Simulates depth fun lexemes =>
      match reads lexemes with
      | .error refusal => .error refusal
      | .ok first => loop first.expression first.rest := by
  intro descent within sameDepth
  have first := simulates descent within sameDepth
  dsimp only [chain]
  cases read : reads descent.cursor.lexemes with
  | error refusal =>
      rw [read] at first
      simp only [first.result_of_error]
      exact ⟨first.depth, first.deepest, rfl⟩
  | ok parsed =>
      rw [read] at first
      have rest := chainFrom_matches simulates leads parsed.expression _
        (Nat.le_trans (Return.left_le _) within) (first.depth.trans sameDepth)
        ⟨_, parsed, read, first.lexemes_of_ok⟩
      rw [first.lexemes_of_ok] at rest
      simp only [first.result_of_ok]
      exact rest.behind _ first.depth first.deepest

end Chain

section Levels

variable {grouping : Grouping}

theorem factorLink_leads (descent : Descent) :
    (factorLink descent).Leads (Expression.primary grouping) (Expression.termFrom grouping)
      descent := by
  rcases descent.atEnd_or_faces with atEnd | ⟨⟨place, lexeme⟩, faces⟩
  · simp only [factorLink, atEnd.peek]
    refine .ends fun left => ?_
    rw [atEnd.lexemes, Expression.termFrom]
  · simp only [factorLink, faces.peek]
    cases lexeme with
    | operator sign =>
        cases sign with
        | add | subtract =>
            refine .ends fun left => ?_
            rw [faces.lexemes, Expression.termFrom]
        | multiply | divide =>
            refine .sign _ rfl fun left => ?_
            rw [faces.lexemes]
            exact Expression.termFrom_operator (by decide) (by decide) rfl
    | opening =>
        -- The star is not written, so the parenthesis is read as the next primary.
        refine .sign .multiply rfl fun left => ?_
        rw [faces.lexemes]
        exact Expression.termFrom_opening rfl
    | closing =>
        refine .ends fun left => ?_
        rw [faces.lexemes, Expression.termFrom]
    | number digits | name letters | unknown character =>
        refine .refused _ (faces.onSight .operatorOrParenthesis) fun left => ?_
        rw [faces.lexemes, Expression.termFrom]

theorem termLink_leads (descent : Descent) (behind : Behind (Expression.term grouping) descent) :
    (termLink descent).Leads (Expression.term grouping) (Expression.sumFrom grouping)
      descent := by
  obtain ⟨lexemes, parsed, read, rest⟩ := behind
  have ends := Expression.term_ends read
  rw [← rest] at ends
  rcases descent.atEnd_or_faces with atEnd | ⟨⟨place, lexeme⟩, faces⟩
  · simp only [termLink, atEnd.peek]
    refine .ends fun left => ?_
    rw [atEnd.lexemes, Expression.sumFrom]
  · have goes : lexeme.endsTerm = true := ends lexeme (by rw [faces.lexemes]; rfl)
    simp only [termLink, faces.peek]
    cases lexeme with
    | operator sign =>
        cases sign with
        | add | subtract =>
            simp only [faces.consume, Lexeme.token?]
            refine .sign _ rfl fun left => ?_
            rw [faces.lexemes]
            exact Expression.sumFrom_additive rfl rfl
        | multiply | divide => cases goes
    | closing =>
        refine .ends fun left => ?_
        rw [faces.lexemes, Expression.sumFrom]
    | number | opening | name | unknown => cases goes

end Levels

section Levels

variable {bound : Nat} {inside : Inside bound}

theorem primaryLevel_simulates (simulates : inside.Simulates) (depth : Nat) :
    (primaryLevel inside).Simulates depth
      (Expression.primary (Expression.nested (maximumNesting - depth))) := by
  rintro descent within rfl
  exact primaryWith_matches simulates within

theorem termLevel_simulates (simulates : inside.Simulates) (depth : Nat) :
    (termLevel inside).Simulates depth
      (Expression.term (Expression.nested (maximumNesting - depth))) :=
  chain_simulates (primaryLevel_simulates simulates depth) fun descent _ => factorLink_leads descent

theorem sumLevel_simulates (simulates : inside.Simulates) (depth : Nat) :
    (sumLevel inside).Simulates depth
      (Expression.sum (Expression.nested (maximumNesting - depth))) :=
  chain_simulates (termLevel_simulates simulates depth) termLink_leads

end Levels

theorem sum_matches (descent : Descent) :
    (sum descent).Matches (Expression.sum descent.grouping descent.cursor.lexemes) := by
  rw [sum]
  have simulates : Inside.Simulates fun inner (_ : inner.left < descent.left) => sum inner :=
    fun inner _ => sum_matches inner
  exact sumLevel_simulates simulates descent.depth descent _ rfl
termination_by descent.left

theorem term_matches (descent : Descent) :
    (term descent).Matches (Expression.term descent.grouping descent.cursor.lexemes) :=
  termLevel_simulates (fun inner _ => sum_matches inner) descent.depth descent _ rfl

theorem primary_matches (descent : Descent) :
    (primary descent).Matches (Expression.primary descent.grouping descent.cursor.lexemes) :=
  primaryLevel_simulates (fun inner _ => sum_matches inner) descent.depth descent _ rfl

theorem parse_eq (text : String) : parse text = Expression.parse text := by
  have whole : (sum { cursor := .start text }).Matches
      (Expression.sum (Expression.nested maximumNesting) (lexemesOf text)) :=
    sum_matches { cursor := .start text }
  unfold parse Expression.parse Expression.ofLexemes
  cases read : Expression.sum (Expression.nested maximumNesting) (lexemesOf text) with
  | error refusal =>
      rw [read] at whole
      simp only [whole.result_of_error]
      rfl
  | ok parsed =>
      rw [read] at whole
      have rest := whole.lexemes_of_ok
      simp only [whole.result_of_ok]
      rcases (sum { cursor := .start text }).next.atEnd_or_faces with atEnd | ⟨located, faces⟩
      · rw [atEnd.lexemes] at rest
        simp only [atEnd.peek, ← rest]
        rfl
      · rw [faces.lexemes] at rest
        simp only [faces.peek, ← rest, faces.onSight]
        rfl

end Descent

end FractionCalculator
