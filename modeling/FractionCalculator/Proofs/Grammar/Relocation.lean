import FractionCalculator.Expression.Parser
import FractionCalculator.Proofs.Grammar.Phrase
import FractionCalculator.Proofs.Lexing

/-!
The parser looks at lexemes, not at where they stand. When they are moved, the expression stays the
same and a refusal moves along.
-/

namespace FractionCalculator

variable (move : Nat → Nat)

def Located.moved (located : Located) : Located := ⟨move located.start, located.lexeme⟩

@[simp] theorem Located.moved_lexeme (located : Located) :
    (located.moved move).lexeme = located.lexeme :=
  rfl

@[simp] theorem Located.moved_start (located : Located) :
    (located.moved move).start = move located.start :=
  rfl

def Refusal.moved (refusal : Refusal) : Refusal :=
  ⟨refusal.expected, refusal.found.map fun found => (found.1, move found.2)⟩

def Parsed.moved (parsed : Parsed) : Parsed :=
  ⟨parsed.expression, parsed.rest.map (Located.moved move)⟩

def movedResult : Except Refusal Parsed → Except Refusal Parsed
  | .ok parsed => .ok (parsed.moved move)
  | .error refusal => .error (refusal.moved move)

@[simp] theorem movedResult_ok (parsed : Parsed) :
    movedResult move (.ok parsed) = .ok (parsed.moved move) :=
  rfl

def Grouping.Moves (grouping : Grouping) : Prop :=
  ∀ start lexemes, grouping.read (move start) (lexemes.map (Located.moved move)) =
    movedResult move (grouping.read start lexemes)

namespace Expression

variable {move} {grouping : Grouping}

theorem negated_moved (moves : grouping.Moves move) (lexemes : List Located) :
    negated grouping (lexemes.map (Located.moved move)) =
      movedResult move (negated grouping lexemes) := by
  cases lexemes with
  | nil => rfl
  | cons located rest =>
      have inner := moves located.start rest
      cases kind : located.lexeme with
      | opening =>
          simp only [negated, List.map_cons, Located.moved_lexeme, kind]
          simp only [Located.moved, inner]
          cases grouping.read located.start rest <;> rfl
      | number | operator | closing | name | unknown =>
          simp only [negated, List.map_cons, Located.moved_lexeme, kind]
          rfl

theorem primary_moved (moves : grouping.Moves move) (lexemes : List Located) :
    primary grouping (lexemes.map (Located.moved move)) =
      movedResult move (primary grouping lexemes) := by
  cases lexemes with
  | nil => rfl
  | cons located rest =>
      cases kind : located.lexeme with
      | opening =>
          simp only [primary, List.map_cons, Located.moved_lexeme, kind]
          exact moves located.start rest
      | operator sign =>
          cases sign with
          | subtract =>
              simp only [primary, List.map_cons, Located.moved_lexeme, kind]
              exact negated_moved moves rest
          | add | multiply | divide =>
              simp only [primary, List.map_cons, Located.moved_lexeme, kind]
              rfl
      | number | closing | name | unknown =>
          simp only [primary, List.map_cons, Located.moved_lexeme, kind]
          rfl

theorem termFrom_operator {left : Expression} {located : Located} {rest : List Located}
    {sign : Operator} (notAdd : sign ≠ .add) (notSubtract : sign ≠ .subtract)
    (kind : located.lexeme = .operator sign) :
    termFrom grouping left (located :: rest) = match primary grouping rest with
      | .error refusal => .error refusal
      | .ok right => termFrom grouping (binary sign left right.expression) right.rest := by
  rw [termFrom, kind]
  cases sign with
  | add => exact absurd rfl notAdd
  | subtract => exact absurd rfl notSubtract
  | multiply | divide => cases primary grouping rest <;> rfl

theorem termFrom_opening {left : Expression} {located : Located} {rest : List Located}
    (kind : located.lexeme = .opening) :
    termFrom grouping left (located :: rest) = match grouping.read located.start rest with
      | .error refusal => .error refusal
      | .ok right => termFrom grouping (binary .multiply left right.expression) right.rest := by
  rw [termFrom, kind]
  cases grouping.read located.start rest <;> rfl

theorem termFrom_moved (moves : grouping.Moves move) (left : Expression) (lexemes : List Located) :
    termFrom grouping left (lexemes.map (Located.moved move)) =
      movedResult move (termFrom grouping left lexemes) := by
  fun_induction termFrom grouping left lexemes with
  | case1 left => simp [termFrom, Parsed.moved]
  | case2 left located rest kind | case3 left located rest kind | case4 left located rest kind =>
      simp [termFrom, kind, Parsed.moved]
  | case5 left located rest sign notAdd notSubtract kind refusal failed =>
      have same : (located.moved move).lexeme = .operator sign := kind
      rw [List.map_cons, termFrom_operator notAdd notSubtract same, primary_moved moves, failed]
      rfl
  | case6 left located rest sign notAdd notSubtract kind right read ih =>
      have same : (located.moved move).lexeme = .operator sign := kind
      rw [List.map_cons, termFrom_operator notAdd notSubtract same, primary_moved moves, read]
      exact ih
  | case7 left located rest kind refusal failed =>
      have same : (located.moved move).lexeme = .opening := kind
      have inner := moves located.start rest
      rw [failed] at inner
      rw [List.map_cons, termFrom_opening same, Located.moved_start, inner]
      rfl
  | case8 left located rest kind right read ih =>
      have same : (located.moved move).lexeme = .opening := kind
      have inner := moves located.start rest
      rw [read] at inner
      rw [List.map_cons, termFrom_opening same, Located.moved_start, inner]
      exact ih
  | case9 left located rest content kind | case10 left located rest content kind
  | case11 left located rest content kind =>
      rw [List.map_cons, termFrom, Located.moved_lexeme, kind]
      rfl

theorem term_moved (moves : grouping.Moves move) (lexemes : List Located) :
    term grouping (lexemes.map (Located.moved move)) =
      movedResult move (term grouping lexemes) := by
  rw [term, primary_moved moves, term]
  cases primary grouping lexemes with
  | error refusal => rfl
  | ok first => exact termFrom_moved moves first.expression first.rest

theorem sumFrom_additive {left : Expression} {located : Located} {rest : List Located}
    {sign : Operator} (additive : sign.additive = true) (kind : located.lexeme = .operator sign) :
    sumFrom grouping left (located :: rest) = match term grouping rest with
      | .error refusal => .error refusal
      | .ok right => sumFrom grouping (binary sign left right.expression) right.rest := by
  rw [sumFrom, kind]
  cases sign with
  | add | subtract => cases term grouping rest <;> rfl
  | multiply | divide => simp [Operator.additive] at additive

theorem sumFrom_moved (moves : grouping.Moves move) (left : Expression) (lexemes : List Located) :
    sumFrom grouping left (lexemes.map (Located.moved move)) =
      movedResult move (sumFrom grouping left lexemes) := by
  fun_induction sumFrom grouping left lexemes with
  | case1 left => simp [sumFrom, Parsed.moved]
  | case2 left located rest kind refusal failed =>
      have same : (located.moved move).lexeme = .operator .add := kind
      rw [List.map_cons, sumFrom_additive rfl same, term_moved moves, failed]
      rfl
  | case3 left located rest kind right read ih =>
      have same : (located.moved move).lexeme = .operator .add := kind
      rw [List.map_cons, sumFrom_additive rfl same, term_moved moves, read]
      exact ih
  | case4 left located rest kind refusal failed =>
      have same : (located.moved move).lexeme = .operator .subtract := kind
      rw [List.map_cons, sumFrom_additive rfl same, term_moved moves, failed]
      rfl
  | case5 left located rest kind right read ih =>
      have same : (located.moved move).lexeme = .operator .subtract := kind
      rw [List.map_cons, sumFrom_additive rfl same, term_moved moves, read]
      exact ih
  | case6 left located rest notAdd notSubtract => simp [sumFrom, Parsed.moved]

theorem sum_moved (moves : grouping.Moves move) (lexemes : List Located) :
    sum grouping (lexemes.map (Located.moved move)) = movedResult move (sum grouping lexemes) := by
  rw [sum, term_moved moves, sum]
  cases term grouping lexemes with
  | error refusal => rfl
  | ok first => exact sumFrom_moved moves first.expression first.rest

theorem enclosed_moved (moves : grouping.Moves move) (lexemes : List Located) :
    enclosed grouping (lexemes.map (Located.moved move)) =
      movedResult move (enclosed grouping lexemes) := by
  rw [enclosed, sum_moved moves, enclosed]
  cases sum grouping lexemes with
  | error refusal => rfl
  | ok inside =>
      obtain ⟨expression, rest⟩ := inside
      cases rest with
      | nil => rfl
      | cons located rest =>
          simp only [movedResult_ok, Parsed.moved, List.map_cons, Located.moved_lexeme]
          cases located.lexeme <;> rfl

theorem nested_moves (room : Nat) : (nested room).Moves move := by
  induction room with
  | zero => exact fun start lexemes => rfl
  | succ room ih => exact fun start lexemes => enclosed_moved ih lexemes

theorem ofLexemes_moved (lexemes : List Located) :
    ofLexemes (lexemes.map (Located.moved move)) =
      (ofLexemes lexemes).mapError (Refusal.moved move) := by
  rw [ofLexemes, sum_moved (nested_moves maximumNesting), ofLexemes]
  cases sum (nested maximumNesting) lexemes with
  | error refusal => rfl
  | ok parsed =>
      obtain ⟨expression, rest⟩ := parsed
      cases rest <;> rfl

end Expression

def indexed (lexemes : List Lexeme) : List Located :=
  lexemes.zipIdx.map fun entry => ⟨entry.2, entry.1⟩

def startOf (lexemes : List Located) (index : Nat) : Nat :=
  (lexemes[index]?.map Located.start).getD 0

theorem map_moved_indexed (lexemes : List Located) :
    (indexed (lexemes.map Located.lexeme)).map (Located.moved (startOf lexemes)) = lexemes := by
  apply List.ext_getElem
  · simp [indexed]
  · intro index _ bound
    simp [indexed, Located.moved, startOf, List.getElem?_eq_getElem bound]

theorem parse_eq_indexed (text : String) :
    Expression.parse text = (Expression.ofLexemes (indexed (lexemesIn text.toList))).mapError
      fun refusal => (refusal.moved (startOf (lexemesOf text))).malformation text := by
  have whole := map_moved_indexed (lexemesOf text)
  rw [map_lexeme_lexemesOf] at whole
  rw [Expression.parse]
  conv_lhs => rw [← whole, Expression.ofLexemes_moved]
  cases Expression.ofLexemes (indexed (lexemesIn text.toList)) <;> rfl

section Malformation

variable (move : Nat → Nat) (refusal : Refusal) (text : String)

@[simp] theorem Refusal.malformation_moved_found :
    ((refusal.moved move).malformation text).found = refusal.found.map Prod.fst := by
  cases found : refusal.found <;> simp [malformation, moved, found]

@[simp] theorem Refusal.malformation_moved_position :
    ((refusal.moved move).malformation text).position =
      (refusal.found.map Prod.snd).map move := by
  cases found : refusal.found <;> simp [malformation, moved, found]

end Malformation

/-- Malformations that may only differ in the position and in the text that they quote. -/
structure Malformation.Alike (malformation other : Malformation) : Prop where
  expected : malformation.expected = other.expected
  found : malformation.found = other.found
  placed : malformation.position.isSome = other.position.isSome

theorem parse_of_same_lexemes {text other : String}
    (same : lexemesIn text.toList = lexemesIn other.toList) :
    (∃ expression, Expression.parse text = .ok expression ∧
      Expression.parse other = .ok expression) ∨
    (∃ malformation otherMalformation, Expression.parse text = .error malformation ∧
      Expression.parse other = .error otherMalformation ∧ malformation.Alike otherMalformation) := by
  rw [parse_eq_indexed text, parse_eq_indexed other, same]
  cases Expression.ofLexemes (indexed (lexemesIn other.toList)) with
  | ok expression => exact .inl ⟨expression, rfl, rfl⟩
  | error refusal =>
      exact .inr ⟨_, _, rfl, rfl, ⟨rfl, by simp, by simp⟩⟩

end FractionCalculator
