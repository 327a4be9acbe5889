import Mathlib
import FractionCalculator.Proofs.Decimal.Reading
import FractionCalculator.Proofs.Evaluation.Failure
import FractionCalculator.Proofs.Grammar.Acceptance

/-!
Evaluation of accepted texts. Their leaves are the numbers of the text, some of them with a minus
sign, so nothing but a second point or a division by zero can go wrong.
-/

namespace FractionCalculator

open Fraction

/-- The leaves of an expression are the numbers among some lexemes, with or without a sign. The only
leaf that is not written is the `-1` that a parenthesis is multiplied by. -/
structure LeavesMatch (expression : Expression) (lexemes : List Lexeme) : Prop where
  written : ∀ leaf ∈ expression.leaves,
    leaf.text = "-1" ∨ ∃ digits, .number digits ∈ lexemes ∧ IsSigned digits leaf.text
  kept : ∀ digits, .number digits ∈ lexemes → ∃ leaf ∈ expression.leaves, IsSigned digits leaf.text

namespace LeavesMatch

theorem number {digits text : String} (signed : IsSigned digits text) :
    LeavesMatch (.number text) [.number digits] := by
  constructor
  · intro leaf member
    rw [List.mem_singleton.mp member]
    exact .inr ⟨digits, by simp, signed⟩
  · intro other member
    obtain rfl : other = digits := by simpa using member
    exact ⟨⟨.number, text⟩, by simp [Expression.number, Expression.leaves], signed⟩

theorem widen {expression : Expression} {lexemes wider : List Lexeme}
    (same : LeavesMatch expression lexemes)
    (numbers : ∀ digits, .number digits ∈ wider ↔ .number digits ∈ lexemes) :
    LeavesMatch expression wider := by
  constructor
  · intro leaf member
    rcases same.written leaf member with unit | ⟨digits, isIn, signed⟩
    · exact .inl unit
    · exact .inr ⟨digits, (numbers digits).mpr isIn, signed⟩
  · intro digits isIn
    exact same.kept digits ((numbers digits).mp isIn)

theorem binary {left right : Expression} {leftLexemes rightLexemes : List Lexeme}
    (operator : Operator) (leftSame : LeavesMatch left leftLexemes)
    (rightSame : LeavesMatch right rightLexemes) :
    LeavesMatch (.binary operator left right) (leftLexemes ++ rightLexemes) := by
  constructor
  · intro leaf member
    rcases List.mem_append.mp member with inLeft | inRight
    · rcases leftSame.written leaf inLeft with unit | ⟨digits, isIn, signed⟩
      · exact .inl unit
      · exact .inr ⟨digits, List.mem_append_left _ isIn, signed⟩
    · rcases rightSame.written leaf inRight with unit | ⟨digits, isIn, signed⟩
      · exact .inl unit
      · exact .inr ⟨digits, List.mem_append_right _ isIn, signed⟩
  · intro digits isIn
    rcases List.mem_append.mp isIn with inLeft | inRight
    · obtain ⟨leaf, member, signed⟩ := leftSame.kept digits inLeft
      exact ⟨leaf, List.mem_append_left _ member, signed⟩
    · obtain ⟨leaf, member, signed⟩ := rightSame.kept digits inRight
      exact ⟨leaf, List.mem_append_right _ member, signed⟩

theorem negated {inside : Expression} {lexemes : List Lexeme} (same : LeavesMatch inside lexemes) :
    LeavesMatch (.binary .multiply (.number "-1") inside) lexemes := by
  constructor
  · intro leaf member
    rcases List.mem_append.mp member with unit | isIn
    · exact .inl (congrArg Token.text (List.mem_singleton.mp unit))
    · exact same.written leaf isIn
  · intro digits isIn
    obtain ⟨leaf, member, signed⟩ := same.kept digits isIn
    exact ⟨leaf, List.mem_append_right _ member, signed⟩

end LeavesMatch

mutual

theorem SumPhrase.leavesMatch : ∀ phrase : SumPhrase,
    LeavesMatch phrase.expression phrase.lexemes
  | .single term => TermPhrase.leavesMatch term
  | .chain left sign _ right =>
      (LeavesMatch.binary sign (SumPhrase.leavesMatch left) (TermPhrase.leavesMatch right)).widen
        (by simp [SumPhrase.lexemes])

theorem TermPhrase.leavesMatch : ∀ phrase : TermPhrase,
    LeavesMatch phrase.expression phrase.lexemes
  | .single primary => PrimaryPhrase.leavesMatch primary
  | .chain left sign _ right =>
      (LeavesMatch.binary sign (TermPhrase.leavesMatch left)
        (PrimaryPhrase.leavesMatch right)).widen (by simp [TermPhrase.lexemes])
  | .beside left inside =>
      (LeavesMatch.binary .multiply (TermPhrase.leavesMatch left)
        (SumPhrase.leavesMatch inside)).widen (by simp [TermPhrase.lexemes])

theorem PrimaryPhrase.leavesMatch : ∀ phrase : PrimaryPhrase,
    LeavesMatch phrase.expression phrase.lexemes
  | .number digits => .number (.inl rfl)
  | .negative digits =>
      (LeavesMatch.number (.inr rfl)).widen (by simp [PrimaryPhrase.lexemes])
  | .negated inside =>
      (SumPhrase.leavesMatch inside).negated.widen (by simp [PrimaryPhrase.lexemes])
  | .grouped inside =>
      (SumPhrase.leavesMatch inside).widen (by simp [PrimaryPhrase.lexemes])

end

theorem leavesMatch_of_parse {text : String} {expression : Expression}
    (accepted : Expression.parse text = .ok expression) :
    ∃ lexemes, Spells text.toList lexemes ∧ LeavesMatch expression lexemes := by
  obtain ⟨phrase, spells, _, rfl⟩ := phrase_of_parse accepted
  exact ⟨phrase.lexemes, spells, phrase.leavesMatch⟩

theorem ofText_minusOne : ∃ value, Fraction.ofText "-1" = .ok value := by
  have number : IsNumber "1".toList := IsNumber.singleton rfl
  exact (ofText_of_isSigned (.inr rfl) number (Nat.zero_le _)).1.mpr (Nat.zero_le _)

section Leaves

variable {text : String} {expression : Expression} {lexemes : List Lexeme}
  (spells : Spells text.toList lexemes) (leaves : LeavesMatch expression lexemes)
  (short : ∀ token ∈ tokensOf text, token.kind = .number →
    fractionalDigits token.text.toList < 2 ^ 32)

include spells short

theorem ofText_of_number {digits shown : String} (isIn : .number digits ∈ lexemes)
    (signed : IsSigned digits shown) :
    ((∃ value, Fraction.ofText shown = .ok value) ↔ shown.toList.count '.' ≤ 1) ∧
      ∀ error, Fraction.ofText shown = .error error → error = .invalidFormat shown := by
  obtain ⟨member, isNumber⟩ := (number_mem_tokensOf_iff spells _).mpr ⟨digits, isIn, rfl⟩
  exact ofText_of_isSigned signed (isNumber_of_spells spells digits isIn)
    (Nat.le_sub_one_of_lt (short _ member isNumber))

include leaves

theorem points_of_unread_leaf {leaf : Token} (member : leaf ∈ expression.leaves)
    {error : CalculationError} (failed : Fraction.ofText leaf.text = .error error) :
    error = .invalidFormat leaf.text ∧ 2 ≤ leaf.text.toList.count '.' ∧
      ∃ digits, .number digits ∈ lexemes ∧ IsSigned digits leaf.text := by
  rcases leaves.written leaf member with unit | ⟨digits, isIn, signed⟩
  · obtain ⟨value, read⟩ := ofText_minusOne
    rw [unit, read] at failed
    exact absurd failed (by simp)
  · obtain ⟨readable, quoted⟩ := ofText_of_number spells short isIn signed
    refine ⟨quoted error failed, ?_, digits, isIn, signed⟩
    by_contra few
    obtain ⟨value, read⟩ := readable.mpr (by omega)
    rw [read] at failed
    exact absurd failed (by simp)

theorem leaves_readable_iff :
    (∀ leaf ∈ expression.leaves, ∃ value, Fraction.ofText leaf.text = .ok value) ↔
      ∀ token ∈ tokensOf text, token.kind = .number → token.text.toList.count '.' ≤ 1 := by
  constructor
  · intro readable token member isNumber
    obtain ⟨digits, isIn, rfl⟩ := (number_mem_tokensOf_iff spells token).mp ⟨member, isNumber⟩
    obtain ⟨leaf, isLeaf, signed⟩ := leaves.kept digits isIn
    rw [← signed.count_point]
    exact (ofText_of_number spells short isIn signed).1.mp (readable leaf isLeaf)
  · intro few leaf member
    cases read : Fraction.ofText leaf.text with
    | ok value => exact ⟨value, rfl⟩
    | error error =>
        obtain ⟨_, many, digits, isIn, signed⟩ :=
          points_of_unread_leaf spells leaves short member read
        obtain ⟨isToken, isNumber⟩ := (number_mem_tokensOf_iff spells _).mpr ⟨digits, isIn, rfl⟩
        have one : digits.toList.count '.' ≤ 1 := few _ isToken isNumber
        rw [signed.count_point] at many
        omega

end Leaves

/-- An accepted text has a value unless one of its numbers has two points or something in it is
divided by zero, and these are the only errors. Numbers whose places cannot be counted in 32 bits are
left out. -/
theorem evaluate_of_parse {text : String} {expression : Expression}
    (accepted : Expression.parse text = .ok expression)
    (short : ∀ token ∈ tokensOf text, token.kind = .number →
      fractionalDigits token.text.toList < 2 ^ 32) :
    ((∃ value, expression.evaluate = .ok value) ↔
      (∀ token ∈ tokensOf text, token.kind = .number → token.text.toList.count '.' ≤ 1) ∧
        ¬expression.DividesByZero) ∧
    (∀ malformation, expression.evaluate ≠ .error (.malformed malformation)) ∧
    (∀ refused, expression.evaluate = .error (.invalidFormat refused) →
      ∃ leaf ∈ expression.leaves, leaf.text = refused ∧ 2 ≤ refused.toList.count '.') ∧
    ((∀ token ∈ tokensOf text, token.kind = .number → token.text.toList.count '.' ≤ 1) →
      ∀ error, expression.evaluate = .error error → error = .divisionByZero) := by
  obtain ⟨lexemes, spells, leaves⟩ := leavesMatch_of_parse accepted
  have readable := leaves_readable_iff spells leaves short
  rw [expression.evaluate_eq_value]
  refine ⟨?_, ?_, ?_, ?_⟩
  · rw [expression.value_isOk_iff, readable]
  · intro malformation failed
    rcases Expression.value_error failed with division | ⟨leaf, member, unread⟩
    · exact CalculationError.noConfusion division
    · obtain ⟨quoted, _⟩ := points_of_unread_leaf spells leaves short member unread
      exact CalculationError.noConfusion quoted
  · intro refused failed
    rcases Expression.value_error failed with division | ⟨leaf, member, unread⟩
    · exact CalculationError.noConfusion division
    · obtain ⟨quoted, many, _⟩ := points_of_unread_leaf spells leaves short member unread
      obtain rfl : refused = leaf.text := CalculationError.invalidFormat.inj quoted
      exact ⟨leaf, member, rfl, many⟩
  · intro few error failed
    rcases Expression.value_error failed with division | ⟨leaf, member, unread⟩
    · exact division
    · obtain ⟨value, read⟩ := readable.mpr few leaf member
      rw [read] at unread
      exact absurd unread (by simp)

theorem evaluate_hidden_zero : ∃ expression,
    Expression.parse "1.5(2)/-(3 - 3.0)" = .ok expression ∧
    (∀ token ∈ tokensOf "1.5(2)/-(3 - 3.0)", token.kind = .number →
      fractionalDigits token.text.toList < 2 ^ 32) ∧
    (¬∃ value, expression.evaluate = .ok value) ∧
    ∀ error, expression.evaluate = .error error → error = .divisionByZero := by
  have accepted : Expression.parse "1.5(2)/-(3 - 3.0)" = .ok
      (.binary .divide (.binary .multiply (.number "1.5") (.number "2"))
        (.binary .multiply (.number "-1") (.binary .subtract (.number "3") (.number "3.0")))) := by
    decide +kernel
  have short : ∀ token ∈ tokensOf "1.5(2)/-(3 - 3.0)", token.kind = .number →
      fractionalDigits token.text.toList < 2 ^ 32 := by
    decide +kernel
  obtain ⟨succeeds, _, _, divisionOnly⟩ := evaluate_of_parse accepted short
  refine ⟨_, accepted, short, ?_, divisionOnly (by decide +kernel)⟩
  intro evaluated
  refine (succeeds.mp evaluated).2 ⟨_, _, Fraction.ofInt 0, List.mem_cons_self, ?_, rfl⟩
  decide +kernel

end FractionCalculator
