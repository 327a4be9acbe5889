import FractionCalculator.Proofs.Decimal.Reading
import FractionCalculator.Proofs.Evaluation.Failure
import FractionCalculator.Proofs.Grammar.Acceptance
import FractionCalculator.Proofs.Grammar.Relocation

/-!
Expressions written with parentheses around every operation. The parser gives them back unchanged when
they are no deeper than it has room for open parentheses, and stops at a parenthesis otherwise.
-/

namespace FractionCalculator

open Lexeme (continuesNumber symbol_mem_marks)

def Token.IsSignedNumber (token : Token) : Prop :=
  token.kind = .number ∧ ∃ digits, IsNumber digits.toList ∧ Fraction.IsSigned digits token.text

namespace Expression

def bracketed : Expression → String
  | literal token => token.text
  | binary operator left right =>
      "(" ++ left.bracketed ++ String.singleton operator.symbol ++ right.bracketed ++ ")"

def leafDepths : Expression → List Nat
  | literal _ => [0]
  | binary _ left right => (left.leafDepths ++ right.leafDepths).map (· + 1)

def depth : Expression → Nat
  | literal _ => 0
  | binary _ left right => max left.depth right.depth + 1

theorem depth_mem_leafDepths (expression : Expression) :
    expression.depth ∈ expression.leafDepths := by
  induction expression with
  | literal token => exact List.mem_singleton.mpr rfl
  | binary operator left right leftIH rightIH =>
      refine List.mem_map.mpr ⟨max left.depth right.depth, List.mem_append.mpr ?_, rfl⟩
      rcases Nat.le_total left.depth right.depth with below | above
      · rw [Nat.max_eq_right below]
        exact .inr rightIH
      · rw [Nat.max_eq_left above]
        exact .inl leftIH

theorem le_depth_of_mem_leafDepths {expression : Expression} {above : Nat}
    (member : above ∈ expression.leafDepths) : above ≤ expression.depth := by
  induction expression generalizing above with
  | literal token => exact Nat.le_of_eq (List.mem_singleton.mp member)
  | binary operator left right leftIH rightIH =>
      obtain ⟨below, isIn, rfl⟩ := List.mem_map.mp member
      rw [depth]
      rcases List.mem_append.mp isIn with inLeft | inRight
      · have bound := leftIH inLeft
        omega
      · have bound := rightIH inRight
        omega

/-- The lexemes of an expression in parentheses. The minus sign of a leaf is a lexeme of its own. -/
inductive Brackets : Expression → List Lexeme → Prop
  | number (digits : String) : Brackets (.number digits) [.number digits]
  | negative (digits : String) :
      Brackets (.number ("-" ++ digits)) [.operator .subtract, .number digits]
  | binary {left right leftLexemes rightLexemes} (operator : Operator) :
      Brackets left leftLexemes → Brackets right rightLexemes →
      Brackets (.binary operator left right)
        (.opening :: (leftLexemes ++ .operator operator :: (rightLexemes ++ [.closing])))

theorem exists_brackets {expression : Expression}
    (numbers : ∀ leaf ∈ expression.leaves, leaf.IsSignedNumber) :
    ∃ lexemes, Brackets expression lexemes ∧
      ∀ rest, (∀ next ∈ rest.head?, continuesNumber next = false) →
        lexemesIn (expression.bracketed.toList ++ rest) = lexemes ++ lexemesIn rest := by
  induction expression with
  | literal token =>
      obtain ⟨kind, text⟩ := token
      obtain ⟨isNumber, digits, number, signed⟩ := numbers _ (List.mem_singleton.mpr rfl)
      obtain rfl : kind = .number := isNumber
      have lexed : ∀ rest, (∀ next ∈ rest.head?, continuesNumber next = false) →
          lexemesIn (digits.toList ++ rest) = .number digits :: lexemesIn rest := by
        intro rest ends
        rw [lexemesIn_of_isNumber number ends, String.ofList_toList]
      rcases signed with rfl | rfl
      · exact ⟨[.number text], .number text, lexed⟩
      · refine ⟨_, .negative digits, ?_⟩
        intro rest ends
        have minus : ("-" ++ digits).toList = '-' :: digits.toList := by simp
        rw [bracketed, minus, List.cons_append, lexemesIn_mark (by decide), lexed rest ends]
        rfl
  | binary operator left right leftIH rightIH =>
      obtain ⟨inLeft, inRight⟩ := List.forall_mem_append.mp numbers
      obtain ⟨leftLexemes, leftBrackets, leftLexed⟩ := leftIH inLeft
      obtain ⟨rightLexemes, rightBrackets, rightLexed⟩ := rightIH inRight
      refine ⟨_, .binary operator leftBrackets rightBrackets, ?_⟩
      intro rest ends
      have characters : (bracketed (.binary operator left right)).toList ++ rest =
          '(' :: (left.bracketed.toList ++ operator.symbol ::
            (right.bracketed.toList ++ ')' :: rest)) := by
        simp [bracketed]
      rw [characters, lexemesIn_mark (by decide),
        leftLexed _ (endsNumber_of_mark (symbol_mem_marks operator) _),
        lexemesIn_mark (symbol_mem_marks operator), leading_symbol,
        rightLexed _ (endsNumber_of_mark (by decide) _), lexemesIn_mark (by decide)]
      simp only [List.cons_append, List.append_assoc, List.nil_append]
      rfl

/-! What the levels of the parser make of two primaries with an operator between them. -/

section Operation

variable {grouping : Grouping} {lexemes middle rest : List Located} {left right : Expression}
  {operator : Operator} {mark closing : Located} {refusal : Refusal}

theorem termFrom_of_endsTerm (ends : mark.lexeme.endsTerm = true) :
    termFrom grouping left (mark :: rest) = .ok ⟨left, mark :: rest⟩ := by
  rw [termFrom]
  cases kind : mark.lexeme with
  | operator sign =>
      rw [kind] at ends
      cases sign with
      | add | subtract => rfl
      | multiply | divide => simp [Lexeme.endsTerm, Operator.additive] at ends
  | closing => rfl
  | number | opening | name | unknown => simp [kind, Lexeme.endsTerm] at ends

theorem term_of_primary (first : primary grouping lexemes = .ok ⟨left, mark :: rest⟩)
    (ends : mark.lexeme.endsTerm = true) : term grouping lexemes = .ok ⟨left, mark :: rest⟩ := by
  rw [term, first]
  exact termFrom_of_endsTerm ends

theorem sumFrom_of_closing (isClosing : closing.lexeme = .closing) :
    sumFrom grouping left (closing :: rest) = .ok ⟨left, closing :: rest⟩ := by
  rw [sumFrom, isClosing]

theorem sum_of_primary_error (failed : primary grouping lexemes = .error refusal) :
    sum grouping lexemes = .error refusal := by
  rw [sum, term, failed]

theorem sum_of_second_error (first : primary grouping lexemes = .ok ⟨left, mark :: middle⟩)
    (isOperator : mark.lexeme = .operator operator)
    (failed : primary grouping middle = .error refusal) :
    sum grouping lexemes = .error refusal := by
  by_cases additive : operator.additive = true
  · have before : term grouping lexemes = .ok ⟨left, mark :: middle⟩ :=
      term_of_primary first (by rw [isOperator]; exact additive)
    have after : term grouping middle = .error refusal := by rw [term, failed]
    simp only [sum, before, sumFrom_additive additive isOperator, after]
  · have notAdd : operator ≠ .add := by rintro rfl; exact additive rfl
    have notSubtract : operator ≠ .subtract := by rintro rfl; exact additive rfl
    simp only [sum, term, first, termFrom_operator notAdd notSubtract isOperator, failed]

theorem sum_of_primaries (first : primary grouping lexemes = .ok ⟨left, mark :: middle⟩)
    (isOperator : mark.lexeme = .operator operator)
    (second : primary grouping middle = .ok ⟨right, closing :: rest⟩)
    (isClosing : closing.lexeme = .closing) :
    sum grouping lexemes = .ok ⟨binary operator left right, closing :: rest⟩ := by
  have ends : closing.lexeme.endsTerm = true := by rw [isClosing]; rfl
  by_cases additive : operator.additive = true
  · have before : term grouping lexemes = .ok ⟨left, mark :: middle⟩ :=
      term_of_primary first (by rw [isOperator]; exact additive)
    have after := term_of_primary second ends
    simp only [sum, before, sumFrom_additive additive isOperator, after]
    exact sumFrom_of_closing isClosing
  · have notAdd : operator ≠ .add := by rintro rfl; exact additive rfl
    have notSubtract : operator ≠ .subtract := by rintro rfl; exact additive rfl
    simp only [sum, term, first, termFrom_operator notAdd notSubtract isOperator, second,
      termFrom_of_endsTerm ends]
    exact sumFrom_of_closing isClosing

theorem enclosed_of_sum (inside : sum grouping lexemes = .ok ⟨left, closing :: rest⟩)
    (isClosing : closing.lexeme = .closing) : enclosed grouping lexemes = .ok ⟨left, rest⟩ := by
  simp only [enclosed, inside, isClosing]

theorem enclosed_of_sum_error (failed : sum grouping lexemes = .error refusal) :
    enclosed grouping lexemes = .error refusal := by
  simp only [enclosed, failed]

end Operation

theorem exists_operation {located : List Located} {operator : Operator}
    {leftLexemes rightLexemes : List Lexeme}
    (spelled : located.map Located.lexeme =
      .opening :: (leftLexemes ++ .operator operator :: (rightLexemes ++ [.closing]))) :
    ∃ start first mark second closing,
      located = ⟨start, .opening⟩ :: (first ++ mark :: (second ++ [closing])) ∧
      first.map Located.lexeme = leftLexemes ∧ mark.lexeme = .operator operator ∧
      second.map Located.lexeme = rightLexemes ∧ closing.lexeme = .closing := by
  obtain ⟨⟨start, lexeme⟩, inside, rfl, rfl, whole⟩ := List.map_eq_cons_iff.mp spelled
  obtain ⟨first, further, rfl, leftSame, whole⟩ := List.map_eq_append_iff.mp whole
  obtain ⟨mark, further, rfl, isOperator, whole⟩ := List.map_eq_cons_iff.mp whole
  obtain ⟨second, last, rfl, rightSame, whole⟩ := List.map_eq_append_iff.mp whole
  obtain ⟨closing, rfl, isClosing⟩ := List.map_eq_singleton_iff.mp whole
  exact ⟨start, first, mark, second, closing, rfl, leftSame, isOperator, rightSame, isClosing⟩

theorem primary_brackets {expression : Expression} {lexemes : List Lexeme}
    (brackets : Brackets expression lexemes) {located : List Located}
    (spelled : located.map Located.lexeme = lexemes) {room : Nat}
    (shallow : expression.depth ≤ room) (rest : List Located) :
    primary (nested room) (located ++ rest) = .ok ⟨expression, rest⟩ := by
  induction brackets generalizing located room rest with
  | number digits =>
      obtain ⟨⟨start, lexeme⟩, rfl, rfl⟩ := List.map_eq_singleton_iff.mp spelled
      rfl
  | negative digits =>
      obtain ⟨⟨start, lexeme⟩, later, rfl, rfl, whole⟩ := List.map_eq_cons_iff.mp spelled
      obtain ⟨⟨place, lexeme⟩, rfl, rfl⟩ := List.map_eq_singleton_iff.mp whole
      rfl
  | @binary left right _ _ operator _ _ leftIH rightIH =>
      obtain ⟨start, first, mark, second, closing, rfl, leftSame, isOperator, rightSame, isClosing⟩ :=
        exists_operation spelled
      obtain ⟨room, rfl⟩ : ∃ fewer, room = fewer + 1 :=
        ⟨room - 1, by rw [depth] at shallow; omega⟩
      rw [depth] at shallow
      simp only [List.cons_append, List.append_assoc, List.nil_append]
      change enclosed (nested room) _ = _
      exact enclosed_of_sum (sum_of_primaries (leftIH leftSame (by omega) _) isOperator
        (rightIH rightSame (by omega) _) isClosing) isClosing

theorem primary_brackets_of_deep {expression : Expression} {lexemes : List Lexeme}
    (brackets : Brackets expression lexemes) {located : List Located}
    (spelled : located.map Located.lexeme = lexemes) {room : Nat}
    (deep : room < expression.depth) (rest : List Located) :
    ∃ start, primary (nested room) (located ++ rest) =
      .error (.onReading .shallowerNesting ⟨start, .opening⟩) := by
  induction brackets generalizing located room rest with
  | number digits | negative digits => exact absurd deep (Nat.not_lt_zero room)
  | @binary left right _ _ operator leftBrackets _ leftIH rightIH =>
      obtain ⟨start, first, mark, second, closing, rfl, leftSame, isOperator, rightSame, isClosing⟩ :=
        exists_operation spelled
      simp only [List.cons_append, List.append_assoc, List.nil_append]
      cases room with
      | zero => exact ⟨start, rfl⟩
      | succ room =>
          rw [depth] at deep
          -- The left side is read first, so the right side counts only where the left side fits.
          by_cases leftDeep : room < left.depth
          · obtain ⟨place, failed⟩ := leftIH leftSame leftDeep (mark :: (second ++ closing :: rest))
            exact ⟨place, enclosed_of_sum_error (sum_of_primary_error failed)⟩
          · have leftRead := primary_brackets leftBrackets leftSame (Nat.not_lt.mp leftDeep)
              (mark :: (second ++ closing :: rest))
            have rightDeep : room < right.depth := by omega
            obtain ⟨place, failed⟩ := rightIH rightSame rightDeep (closing :: rest)
            exact ⟨place, enclosed_of_sum_error (sum_of_second_error leftRead isOperator failed)⟩

theorem ofLexemes_of_primary {lexemes : List Located} {expression : Expression}
    (alone : primary (nested maximumNesting) lexemes = .ok ⟨expression, []⟩) :
    ofLexemes lexemes = .ok expression := by
  simp only [ofLexemes, sum, term, alone, termFrom, sumFrom]

theorem ofLexemes_of_primary_error {lexemes : List Located} {refusal : Refusal}
    (failed : primary (nested maximumNesting) lexemes = .error refusal) :
    ofLexemes lexemes = .error refusal := by
  simp only [ofLexemes, sum_of_primary_error failed]

theorem exists_brackets_of_text {expression : Expression}
    (numbers : ∀ leaf ∈ expression.leaves, leaf.IsSignedNumber) :
    Brackets expression ((lexemesOf expression.bracketed).map Located.lexeme) := by
  obtain ⟨lexemes, brackets, lexed⟩ := exists_brackets numbers
  have whole := lexed [] (by simp)
  rw [List.append_nil, lexemesIn_nil, List.append_nil] at whole
  rwa [map_lexeme_lexemesOf, whole]

theorem parse_bracketed_of_shallow {expression : Expression}
    (numbers : ∀ leaf ∈ expression.leaves, leaf.IsSignedNumber)
    (shallow : expression.depth ≤ maximumNesting) : parse expression.bracketed = .ok expression := by
  have read := primary_brackets (exists_brackets_of_text numbers) rfl shallow []
  rw [List.append_nil] at read
  exact parse_of_ofLexemes (ofLexemes_of_primary read)

theorem parse_bracketed_of_deep {expression : Expression}
    (numbers : ∀ leaf ∈ expression.leaves, leaf.IsSignedNumber)
    (deep : maximumNesting < expression.depth) : ∃ start, parse expression.bracketed =
      .error ((Refusal.onReading .shallowerNesting ⟨start, .opening⟩).malformation
        expression.bracketed) := by
  obtain ⟨start, failed⟩ := primary_brackets_of_deep (exists_brackets_of_text numbers) rfl deep []
  rw [List.append_nil] at failed
  refine ⟨start, ?_⟩
  rw [parse, ofLexemes_of_primary_error failed]
  rfl

end Expression

/-- An expression of numbers, written with parentheses around every operation, is parsed to itself
exactly when no leaf stands under more than 256 operations. Otherwise the parenthesis that is one too
many is refused. -/
theorem parse_bracketed_iff (expression : Expression)
    (numbers : ∀ leaf ∈ expression.leaves, leaf.IsSignedNumber) :
    (Expression.parse expression.bracketed = .ok expression ↔
      ∀ above ∈ expression.leafDepths, above ≤ 256) ∧
    ((∃ above ∈ expression.leafDepths, 256 < above) → ∃ malformation,
      Expression.parse expression.bracketed = .error malformation ∧
      malformation.expected = Expectation.shallowerNesting.text ∧
      malformation.found = some "(") := by
  have limit : maximumNesting = 256 := rfl
  refine ⟨⟨?_, ?_⟩, ?_⟩
  · intro same above member
    by_contra beyond
    have bound := Expression.le_depth_of_mem_leafDepths member
    obtain ⟨start, refused⟩ := Expression.parse_bracketed_of_deep numbers (by omega)
    simp [same] at refused
  · intro shallow
    have bound := shallow _ expression.depth_mem_leafDepths
    exact Expression.parse_bracketed_of_shallow numbers bound
  · rintro ⟨above, member, beyond⟩
    have bound := Expression.le_depth_of_mem_leafDepths member
    obtain ⟨start, refused⟩ := Expression.parse_bracketed_of_deep numbers (by omega)
    exact ⟨_, refused, rfl, rfl⟩

theorem parse_bracketed_minuses :
    Expression.parse "((1--1)/-1)" = .ok (.binary .divide
      (.binary .subtract (.number "1") (.number "-1")) (.number "-1")) ∧
    ∃ malformation,
      Expression.parse ((List.range 257).foldl
        (fun tower _ => Expression.binary .subtract (.number "-1") tower) (.number "1")).bracketed =
          .error malformation ∧
      malformation.found = some "(" := by
  have one : IsNumber "1".toList := IsNumber.singleton rfl
  have numbers {expression : Expression}
      (units : ∀ leaf ∈ expression.leaves, leaf = ⟨.number, "1"⟩ ∨ leaf = ⟨.number, "-1"⟩) :
      ∀ leaf ∈ expression.leaves, leaf.IsSignedNumber := by
    intro leaf member
    rcases units leaf member with rfl | rfl
    · exact ⟨rfl, "1", one, .inl rfl⟩
    · exact ⟨rfl, "1", one, .inr rfl⟩
  constructor
  · have written : (Expression.binary .divide (.binary .subtract (.number "1") (.number "-1"))
        (.number "-1")).bracketed = "((1--1)/-1)" := by decide +kernel
    rw [← written]
    exact (parse_bracketed_iff _ (numbers (by decide))).1.mpr (by decide)
  · obtain ⟨malformation, refused, _, found⟩ :=
      (parse_bracketed_iff ((List.range 257).foldl
        (fun tower _ => Expression.binary .subtract (.number "-1") tower) (.number "1"))
        (numbers (by decide +kernel))).2
        ⟨_, Expression.depth_mem_leafDepths _, by decide +kernel⟩
    exact ⟨malformation, refused, found⟩

end FractionCalculator
