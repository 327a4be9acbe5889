import Mathlib
import FractionCalculator.Proofs.Evaluation.Failure
import FractionCalculator.Proofs.Fraction.Arithmetic

/-!
Arithmetic on fractions is arithmetic on rational numbers, down to where it fails, and so it obeys the
same laws.
-/

namespace FractionCalculator.Fraction

/-- The result is the fraction for the number where the number is defined, and a division by zero where
it is not. -/
structure Denotes (result : Except CalculationError Fraction) (defined : Prop) (number : ℚ) :
    Prop where
  ok_iff : ∀ value, result = .ok value ↔ defined ∧ value.toRat = number
  error_iff : ∀ error, result = .error error ↔ ¬defined ∧ error = .divisionByZero

theorem denotes_of_cases {result : Except CalculationError Fraction} {defined : Prop} {number : ℚ}
    (found : defined → ∃ value, result = .ok value ∧ value.toRat = number)
    (failed : ¬defined → result = .error .divisionByZero) : Denotes result defined number := by
  by_cases isDefined : defined
  · obtain ⟨value, rfl, rfl⟩ := found isDefined
    refine ⟨fun other => ?_, fun error => by simp [isDefined]⟩
    rw [Except.ok.injEq, toRat_injective.eq_iff, eq_comm]
    exact (and_iff_right isDefined).symm
  · rw [failed isDefined]
    refine ⟨fun value => by simp [isDefined], fun error => ?_⟩
    rw [Except.error.injEq, eq_comm]
    exact (and_iff_right isDefined).symm

theorem divide_denotes (left right : Fraction) :
    Denotes (left.divide right) (right.toRat ≠ 0) (left.toRat / right.toRat) := by
  refine denotes_of_cases left.divide_toRat fun zero => ?_
  exact left.divide_of_zero ((toRat_eq_zero_iff right).mp (not_not.mp zero))

theorem inverse_denotes (value : Fraction) :
    Denotes value.inverse (value.toRat ≠ 0) value.toRat⁻¹ :=
  denotes_of_cases inverse_toRat fun zero => inverse_of_zero (not_not.mp zero)

theorem power_denotes (value : Fraction) (exponent : Int) :
    Denotes (value.power exponent) (¬(value.toRat = 0 ∧ exponent < 0))
      (value.toRat ^ exponent) := by
  refine denotes_of_cases (fun defined => power_toRat ?_) fun undefined => ?_
  · rwa [not_and_or, not_lt] at defined
  · obtain ⟨zero, negative⟩ := not_not.mp undefined
    exact power_of_zero zero negative

theorem zpow_add_of_defined {number : ℚ} {exponent other : Int}
    (defined : ¬(number = 0 ∧ exponent < 0)) (otherDefined : ¬(number = 0 ∧ other < 0)) :
    number ^ exponent * number ^ other = number ^ (exponent + other) := by
  by_cases zero : number = 0
  · -- Zero has powers of natural exponents only, and those add up for it as well.
    have nonnegative : 0 ≤ exponent := not_lt.mp fun negative => defined ⟨zero, negative⟩
    have otherNonnegative : 0 ≤ other := not_lt.mp fun negative => otherDefined ⟨zero, negative⟩
    obtain ⟨count, rfl⟩ := Int.eq_ofNat_of_zero_le nonnegative
    obtain ⟨otherCount, rfl⟩ := Int.eq_ofNat_of_zero_le otherNonnegative
    rw [← Int.natCast_add, zpow_natCast, zpow_natCast, zpow_natCast, pow_add]
  · exact (zpow_add₀ zero exponent other).symm

theorem power_add {value first second whole : Fraction} {exponent other : Int}
    (isFirst : value.power exponent = .ok first) (isSecond : value.power other = .ok second)
    (isWhole : value.power (exponent + other) = .ok whole) : first * second = whole := by
  obtain ⟨defined, firstNumber⟩ := ((power_denotes value exponent).ok_iff first).mp isFirst
  obtain ⟨otherDefined, secondNumber⟩ := ((power_denotes value other).ok_iff second).mp isSecond
  obtain ⟨_, wholeNumber⟩ := ((power_denotes value (exponent + other)).ok_iff whole).mp isWhole
  apply toRat_injective
  rw [toRat_mul, firstNumber, secondNumber, wholeNumber, zpow_add_of_defined defined otherDefined]

theorem add_sub_self_right (left right : Fraction) : left + right - right = left := by
  apply toRat_injective
  rw [toRat_sub, toRat_add, add_sub_cancel_right]

theorem mul_divide_self_right (left : Fraction) {right : Fraction} (nonzero : right.toRat ≠ 0) :
    (left * right).divide right = .ok left := by
  refine ((divide_denotes (left * right) right).ok_iff left).mpr ⟨nonzero, ?_⟩
  rw [toRat_mul, mul_div_cancel_right₀ _ nonzero]

/-- Every operation gives the fraction for the number that it ought to give. Only a quotient by zero, the
inverse of zero and a power of zero with a negative exponent are missing, and each of them is refused as
a division by zero. -/
theorem arithmetic_exact (left right : Fraction) :
    (left + right).toRat = left.toRat + right.toRat ∧
    (left - right).toRat = left.toRat - right.toRat ∧
    (left * right).toRat = left.toRat * right.toRat ∧
    (-left).toRat = -left.toRat ∧
    left.abs.toRat = |left.toRat| ∧
    Denotes (left.divide right) (right.toRat ≠ 0) (left.toRat / right.toRat) ∧
    Denotes left.inverse (left.toRat ≠ 0) left.toRat⁻¹ ∧
    (∀ exponent : Int, Denotes (left.power exponent) (¬(left.toRat = 0 ∧ exponent < 0))
      (left.toRat ^ exponent)) ∧
    (∀ (exponent other : Int) (first second whole : Fraction),
      left.power exponent = .ok first → left.power other = .ok second →
        left.power (exponent + other) = .ok whole → first * second = whole) ∧
    left + right - right = left ∧
    (right.toRat ≠ 0 → (left * right).divide right = .ok left) := by
  refine ⟨toRat_add left right, toRat_sub left right, toRat_mul left right, toRat_neg left,
    toRat_abs left, divide_denotes left right, inverse_denotes left, power_denotes left, ?_,
    add_sub_self_right left right, left.mul_divide_self_right⟩
  intro exponent other first second whole isFirst isSecond isWhole
  exact power_add isFirst isSecond isWhole

theorem arithmetic_of_negatives :
    (-oneThird).power (-3) = .ok (ofInt (-27)) ∧
    (-oneThird).power 2 = .ok (oneThird * oneThird) ∧
    (-oneThird).power (-1) = .ok (ofInt (-3)) ∧
    ofInt (-27) * (oneThird * oneThird) = ofInt (-3) ∧
    (-oneHalf).toRat ≠ 0 ∧
    (-oneThird * -oneHalf).divide (-oneHalf) = .ok (-oneThird) := by
  have first : (-oneThird).power (-3) = .ok (ofInt (-27)) := by decide +kernel
  have second : (-oneThird).power 2 = .ok (oneThird * oneThird) := by decide +kernel
  have whole : (-oneThird).power (-1) = .ok (ofInt (-3)) := by decide +kernel
  have nonzero : (-oneHalf).toRat ≠ 0 := by simp
  obtain ⟨_, _, _, _, _, _, _, _, powers, _, quotient⟩ := arithmetic_exact (-oneThird) (-oneHalf)
  exact ⟨first, second, whole, powers (-3) 2 _ _ _ first second whole, nonzero, quotient nonzero⟩

end FractionCalculator.Fraction
