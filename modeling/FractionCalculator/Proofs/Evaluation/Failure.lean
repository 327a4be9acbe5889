import FractionCalculator.Proofs.Evaluation.Worklist

/-!
Why an expression has no value: a leaf of it cannot be read, or it divides by a part that is zero.
-/

namespace FractionCalculator

namespace Fraction

theorem divide_of_zero (left : Fraction) {right : Fraction} (zero : right.numerator = 0) :
    left.divide right = .error .divisionByZero := by
  simp [divide, ofRatio, zero]

theorem divide_of_nonzero (left : Fraction) {right : Fraction} (nonzero : right.numerator ≠ 0) :
    ∃ quotient, left.divide right = .ok quotient := by
  have positive := left.denominator_pos
  have below : (left.denominator : Int) * right.numerator ≠ 0 :=
    Int.mul_ne_zero (by omega) nonzero
  exact ⟨_, dif_neg below⟩

theorem ofRatio_error {numerator denominator : Int} {error : CalculationError}
    (failed : ofRatio numerator denominator = .error error) : error = .divisionByZero := by
  unfold ofRatio at failed
  split at failed
  · exact (Except.error.inj failed).symm
  · simp at failed

theorem ofText_error {text : String} {error : CalculationError}
    (failed : ofText text = .error error) :
    error = .divisionByZero ∨ error = .invalidFormat (trimBlanks text) := by
  unfold ofText at failed
  simp only at failed
  split at failed
  · split at failed
    · simp at failed
    · exact .inr (Except.error.inj failed).symm
  · split at failed
    · exact .inl (ofRatio_error failed)
    · exact .inr (Except.error.inj failed).symm

end Fraction

def Operator.DividesByZero (operator : Operator) (right : Fraction) : Prop :=
  operator = .divide ∧ right.numerator = 0

theorem Operator.apply_of_dividesByZero {operator : Operator} {right : Fraction}
    (divides : operator.DividesByZero right) (left : Fraction) :
    operator.apply left right = .error .divisionByZero := by
  obtain ⟨rfl, zero⟩ := divides
  exact left.divide_of_zero zero

theorem Operator.apply_of_not_dividesByZero {operator : Operator} {right : Fraction}
    (divides : ¬operator.DividesByZero right) (left : Fraction) :
    ∃ result, operator.apply left right = .ok result := by
  cases operator with
  | add | subtract | multiply => exact ⟨_, rfl⟩
  | divide => exact left.divide_of_nonzero fun zero => divides ⟨rfl, zero⟩

namespace Expression

def leaves : Expression → List Token
  | literal token => [token]
  | binary _ left right => left.leaves ++ right.leaves

def parts : Expression → List Expression
  | literal token => [literal token]
  | binary operator left right => binary operator left right :: (left.parts ++ right.parts)

/-- Some division of the expression has a right side whose value is zero. -/
def DividesByZero (expression : Expression) : Prop :=
  ∃ left right zero, binary .divide left right ∈ expression.parts ∧ right.evaluate = .ok zero ∧
    zero.numerator = 0

theorem not_dividesByZero_literal (token : Token) : ¬(literal token).DividesByZero := by
  rintro ⟨left, right, zero, member, _⟩
  simp [parts] at member

theorem dividesByZero_binary_iff {operator : Operator} {left right : Expression} :
    (binary operator left right).DividesByZero ↔
      (∃ value, right.value = .ok value ∧ operator.DividesByZero value) ∨
        left.DividesByZero ∨ right.DividesByZero := by
  constructor
  · rintro ⟨above, below, zero, member, evaluated, isZero⟩
    simp only [parts, List.mem_cons, List.mem_append] at member
    rcases member with here | inLeft | inRight
    · obtain ⟨rfl, rfl, rfl⟩ := Expression.binary.inj here
      exact .inl ⟨zero, below.evaluate_eq_value ▸ evaluated, rfl, isZero⟩
    · exact .inr (.inl ⟨above, below, zero, inLeft, evaluated, isZero⟩)
    · exact .inr (.inr ⟨above, below, zero, inRight, evaluated, isZero⟩)
  · rintro (⟨zero, evaluated, rfl, isZero⟩ | ⟨above, below, zero, member, divides⟩ |
      ⟨above, below, zero, member, divides⟩)
    · exact ⟨left, right, zero, by simp [parts], right.evaluate_eq_value ▸ evaluated, isZero⟩
    · exact ⟨above, below, zero, by simp [parts, member], divides⟩
    · exact ⟨above, below, zero, by simp [parts, member], divides⟩

section Binary

variable {operator : Operator} {left right : Expression}

theorem value_of_left_error {error : CalculationError} (failed : left.value = .error error) :
    (binary operator left right).value = .error error := by
  rw [value, failed]
  rfl

theorem value_of_right_error {leftValue : Fraction} {error : CalculationError}
    (leftRead : left.value = .ok leftValue) (failed : right.value = .error error) :
    (binary operator left right).value = .error error := by
  rw [value, leftRead, failed]
  rfl

theorem value_of_values {leftValue rightValue : Fraction} (leftRead : left.value = .ok leftValue)
    (rightRead : right.value = .ok rightValue) :
    (binary operator left right).value = operator.apply leftValue rightValue := by
  rw [value, leftRead, rightRead]
  rfl

theorem value_binary_isOk_iff :
    (∃ result, (binary operator left right).value = .ok result) ↔
      (∃ leftValue, left.value = .ok leftValue) ∧ (∃ rightValue, right.value = .ok rightValue) ∧
        ¬∃ rightValue, right.value = .ok rightValue ∧ operator.DividesByZero rightValue := by
  constructor
  · rintro ⟨result, found⟩
    cases leftRead : left.value with
    | error error => simp [value_of_left_error leftRead] at found
    | ok leftValue =>
        cases rightRead : right.value with
        | error error => simp [value_of_right_error leftRead rightRead] at found
        | ok rightValue =>
            refine ⟨⟨leftValue, rfl⟩, ⟨rightValue, rfl⟩, ?_⟩
            rintro ⟨other, same, divides⟩
            obtain rfl : rightValue = other := Except.ok.inj same
            rw [value_of_values leftRead rightRead,
              Operator.apply_of_dividesByZero divides] at found
            simp at found
  · rintro ⟨⟨leftValue, leftRead⟩, ⟨rightValue, rightRead⟩, noZero⟩
    have nonzero : ¬operator.DividesByZero rightValue := by
      intro divides
      exact noZero ⟨rightValue, rightRead, divides⟩
    rw [value_of_values leftRead rightRead]
    exact Operator.apply_of_not_dividesByZero nonzero leftValue

end Binary

theorem value_isOk_iff (expression : Expression) :
    (∃ result, expression.value = .ok result) ↔
      (∀ leaf ∈ expression.leaves, ∃ result, Fraction.ofText leaf.text = .ok result) ∧
        ¬expression.DividesByZero := by
  induction expression with
  | literal token =>
      simp only [leaves, List.mem_singleton, forall_eq, not_dividesByZero_literal token,
        not_false_iff, and_true]
      rfl
  | binary operator left right leftIH rightIH =>
      rw [value_binary_isOk_iff, leftIH, rightIH, dividesByZero_binary_iff, not_or, not_or, leaves,
        List.forall_mem_append]
      constructor
      · rintro ⟨⟨leftRead, leftSafe⟩, ⟨rightRead, rightSafe⟩, safe⟩
        exact ⟨⟨leftRead, rightRead⟩, safe, leftSafe, rightSafe⟩
      · rintro ⟨⟨leftRead, rightRead⟩, safe, leftSafe, rightSafe⟩
        exact ⟨⟨leftRead, leftSafe⟩, ⟨rightRead, rightSafe⟩, safe⟩

theorem value_error {expression : Expression} {error : CalculationError}
    (failed : expression.value = .error error) :
    error = .divisionByZero ∨
      ∃ leaf ∈ expression.leaves, Fraction.ofText leaf.text = .error error := by
  induction expression with
  | literal token => exact .inr ⟨token, by simp [leaves], failed⟩
  | binary operator left right leftIH rightIH =>
      simp only [leaves, List.mem_append, or_and_right, exists_or]
      cases leftRead : left.value with
      | error leftError =>
          rw [value_of_left_error leftRead, Except.error.injEq] at failed
          rcases leftIH (failed ▸ leftRead) with division | unread
          · exact .inl division
          · exact .inr (.inl unread)
      | ok leftValue =>
          cases rightRead : right.value with
          | error rightError =>
              rw [value_of_right_error leftRead rightRead, Except.error.injEq] at failed
              rcases rightIH (failed ▸ rightRead) with division | unread
              · exact .inl division
              · exact .inr (.inr unread)
          | ok rightValue =>
              rw [value_of_values leftRead rightRead] at failed
              by_cases divides : operator.DividesByZero rightValue
              · rw [Operator.apply_of_dividesByZero divides, Except.error.injEq] at failed
                exact .inl failed.symm
              · obtain ⟨result, applied⟩ := Operator.apply_of_not_dividesByZero divides leftValue
                rw [applied] at failed
                exact absurd failed (by simp)

theorem value_error_kind {expression : Expression} {error : CalculationError}
    (failed : expression.value = .error error) : error = .divisionByZero ∨
      ∃ leaf ∈ expression.leaves, error = .invalidFormat (trimBlanks leaf.text) := by
  rcases value_error failed with division | ⟨leaf, member, unread⟩
  · exact .inl division
  · rcases Fraction.ofText_error unread with division | invalid
    · exact .inl division
    · exact .inr ⟨leaf, member, invalid⟩

end Expression

end FractionCalculator
