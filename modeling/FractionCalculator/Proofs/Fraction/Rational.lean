import Mathlib
import FractionCalculator.Fraction.Order
import FractionCalculator.Fraction.Parser

/-!
The rational number that a fraction stands for. Lowest terms leave only one fraction for each number,
so two results are the same fraction as soon as they are the same number.
-/

namespace FractionCalculator

namespace Fraction

def toRat (value : Fraction) : ℚ := value.numerator / value.denominator

theorem cast_denominator_pos (value : Fraction) : (0 : ℚ) < value.denominator :=
  Nat.cast_pos.mpr value.denominator_pos

theorem toRat_injective : Function.Injective toRat := by
  intro value other same
  have positive : (0 : ℤ) < value.denominator := Int.natCast_pos.mpr value.denominator_pos
  have otherPositive : (0 : ℤ) < other.denominator := Int.natCast_pos.mpr other.denominator_pos
  obtain ⟨numerators, denominators⟩ :=
    Rat.div_int_inj positive otherPositive value.reduced other.reduced
      (by simpa only [toRat, Int.cast_natCast] using same)
  cases value
  cases other
  obtain rfl := numerators
  obtain rfl := Int.ofNat.inj denominators
  rfl

@[simp] theorem toRat_reduce (numerator : Int) (denominator : Nat) (positive : 0 < denominator) :
    (reduce numerator denominator positive).toRat = numerator / denominator := by
  have divisor_pos : 0 < numerator.natAbs.gcd denominator := Nat.gcd_pos_of_pos_right _ positive
  have nonzero : ((numerator.natAbs.gcd denominator : ℕ) : ℚ) ≠ 0 :=
    Nat.cast_ne_zero.mpr divisor_pos.ne'
  have divides : ((numerator.natAbs.gcd denominator : ℕ) : ℤ) ∣ numerator :=
    Int.ofNat_dvd_left.mpr (Nat.gcd_dvd_left _ _)
  rw [toRat, reduce, Int.cast_div divides (by exact_mod_cast nonzero),
    Nat.cast_div (Nat.gcd_dvd_right _ _) nonzero]
  exact div_div_div_cancel_right₀ (by exact_mod_cast nonzero) _ _

@[simp] theorem toRat_ofInt (value : Int) : (ofInt value).toRat = value := by
  simp [toRat, ofInt]

@[simp] theorem toRat_neg (value : Fraction) : (-value).toRat = -value.toRat := by
  change ((-value.numerator : ℤ) : ℚ) / value.denominator = -value.toRat
  rw [toRat, Int.cast_neg, neg_div]

@[simp] theorem toRat_add (left right : Fraction) :
    (left + right).toRat = left.toRat + right.toRat := by
  change (add left right).toRat = _
  rw [add, toRat_reduce, toRat, toRat,
    div_add_div _ _ left.cast_denominator_pos.ne' right.cast_denominator_pos.ne']
  push_cast
  ring

@[simp] theorem toRat_sub (left right : Fraction) :
    (left - right).toRat = left.toRat - right.toRat := by
  change (sub left right).toRat = _
  rw [sub, toRat_reduce, toRat, toRat,
    div_sub_div _ _ left.cast_denominator_pos.ne' right.cast_denominator_pos.ne']
  push_cast
  ring

@[simp] theorem toRat_mul (left right : Fraction) :
    (left * right).toRat = left.toRat * right.toRat := by
  change (mul left right).toRat = _
  rw [mul, toRat_reduce, toRat, toRat, div_mul_div_comm]
  push_cast
  rfl

theorem toRat_eq_zero_iff (value : Fraction) : value.toRat = 0 ↔ value.numerator = 0 := by
  rw [toRat, div_eq_zero_iff, Int.cast_eq_zero]
  exact or_iff_left value.cast_denominator_pos.ne'

theorem toRat_nonneg_iff (value : Fraction) : 0 ≤ value.toRat ↔ 0 ≤ value.numerator := by
  rw [toRat, le_div_iff₀ value.cast_denominator_pos, zero_mul, Int.cast_nonneg_iff]

theorem toRat_pos_iff (value : Fraction) : 0 < value.toRat ↔ 0 < value.numerator := by
  rw [toRat, div_pos_iff_of_pos_right value.cast_denominator_pos, Int.cast_pos]

theorem toRat_lt_zero_iff (value : Fraction) : value.toRat < 0 ↔ value.numerator < 0 := by
  rw [← not_le, toRat_nonneg_iff, not_le]

theorem ofRatio_zero (numerator : Int) : ofRatio numerator 0 = .error .divisionByZero :=
  rfl

theorem ofRatio_of_ne_zero (numerator : Int) {denominator : Int} (nonzero : denominator ≠ 0) :
    ∃ quotient, ofRatio numerator denominator = .ok quotient ∧
      quotient.toRat = numerator / denominator := by
  refine ⟨_, dif_neg nonzero, ?_⟩
  have sign : (denominator.sign : ℚ) ≠ 0 :=
    Int.cast_ne_zero.mpr (mt Int.sign_eq_zero_iff_zero.mp nonzero)
  have magnitude : ((denominator.natAbs : ℕ) : ℚ) = denominator.sign * denominator := by
    rw [← Int.cast_natCast, ← Int.sign_mul_self_eq_natAbs, Int.cast_mul]
  rw [toRat_reduce, magnitude, Int.cast_mul, mul_div_mul_left _ _ sign]

theorem divide_toRat (left : Fraction) {right : Fraction} (nonzero : right.toRat ≠ 0) :
    ∃ quotient, left.divide right = .ok quotient ∧ quotient.toRat = left.toRat / right.toRat := by
  rw [ne_eq, toRat_eq_zero_iff] at nonzero
  have below : (left.denominator : ℤ) * right.numerator ≠ 0 :=
    mul_ne_zero (Int.natCast_ne_zero.mpr left.denominator_pos.ne') nonzero
  obtain ⟨quotient, divided, same⟩ :=
    ofRatio_of_ne_zero (left.numerator * right.denominator) below
  refine ⟨quotient, divided, ?_⟩
  rw [same, toRat, toRat, div_div_div_eq]
  push_cast
  rfl

theorem compare_toRat (left right : Fraction) :
    compare left right = compare left.toRat right.toRat := by
  -- Both denominators are positive, so the cross products stand in the same order as the numbers.
  have positive : (0 : ℚ) < left.denominator * right.denominator :=
    mul_pos left.cast_denominator_pos right.cast_denominator_pos
  have leftCross : ((left.numerator * right.denominator : ℤ) : ℚ) =
      left.toRat * (left.denominator * right.denominator) := by
    rw [toRat, ← mul_assoc, div_mul_cancel₀ _ left.cast_denominator_pos.ne']
    push_cast
    rfl
  have rightCross : ((right.numerator * left.denominator : ℤ) : ℚ) =
      right.toRat * (left.denominator * right.denominator) := by
    rw [toRat, mul_comm (left.denominator : ℚ), ← mul_assoc,
      div_mul_cancel₀ _ right.cast_denominator_pos.ne']
    push_cast
    rfl
  calc compare left right
      = compare (left.numerator * right.denominator) (right.numerator * left.denominator) := rfl
    _ = cmp (left.numerator * right.denominator) (right.numerator * left.denominator) :=
        (cmp_eq_compare _ _).symm
    _ = cmp ((left.numerator * right.denominator : ℤ) : ℚ)
          ((right.numerator * left.denominator : ℤ) : ℚ) :=
        (Int.cast_strictMono.cmp_map_eq _ _).symm
    _ = cmp left.toRat right.toRat := by
        rw [leftCross, rightCross, cmp_mul_pos_right positive]
    _ = compare left.toRat right.toRat := cmp_eq_compare _ _

theorem compare_isLE_iff (left right : Fraction) :
    (compare left right).isLE = true ↔ left.toRat ≤ right.toRat := by
  rw [compare_toRat, Ordering.isLE_iff_ne_gt]
  exact compare_le_iff_le

end Fraction

def DecimalLiteral.toRat (literal : DecimalLiteral) : ℚ := literal.mantissa / 10 ^ literal.scale

theorem DecimalLiteral.toRat_eq_zero_iff (literal : DecimalLiteral) :
    literal.toRat = 0 ↔ literal.mantissa = 0 := by
  rw [toRat, div_eq_zero_iff, Int.cast_eq_zero]
  exact or_iff_left (by positivity)

theorem DecimalLiteral.mantissaAt_div (literal : DecimalLiteral) {scale : Nat}
    (larger : literal.scale ≤ scale) :
    (literal.mantissaAt scale : ℚ) / 10 ^ scale = literal.toRat := by
  have split : (10 : ℚ) ^ scale = 10 ^ (scale - literal.scale) * 10 ^ literal.scale := by
    rw [← pow_add, Nat.sub_add_cancel larger]
  have nonzero : (10 : ℚ) ^ (scale - literal.scale) ≠ 0 := by positivity
  rw [mantissaAt, toRat, split]
  push_cast [Nat.pow_eq]
  rw [mul_comm, mul_div_mul_left _ _ nonzero]

namespace Fraction

@[simp] theorem toRat_ofLiteral (literal : DecimalLiteral) :
    (ofLiteral literal).toRat = literal.toRat := by
  rw [ofLiteral, toRat_reduce, DecimalLiteral.toRat]
  push_cast [Nat.pow_eq]
  rfl

theorem ofLiteralPair_of_zero (above : DecimalLiteral) {below : DecimalLiteral}
    (zero : below.toRat = 0) : ofLiteralPair above below = .error .divisionByZero := by
  rw [DecimalLiteral.toRat_eq_zero_iff] at zero
  have nothing : below.mantissaAt (max above.scale below.scale) = 0 := by
    rw [DecimalLiteral.mantissaAt, zero, zero_mul]
  rw [ofLiteralPair, nothing]
  exact ofRatio_zero _

theorem ofLiteralPair_of_ne_zero (above : DecimalLiteral) {below : DecimalLiteral}
    (nonzero : below.toRat ≠ 0) :
    ∃ quotient, ofLiteralPair above below = .ok quotient ∧
      quotient.toRat = above.toRat / below.toRat := by
  have upper := above.mantissaAt_div (Nat.le_max_left above.scale below.scale)
  have lower := below.mantissaAt_div (Nat.le_max_right above.scale below.scale)
  have power : (10 : ℚ) ^ max above.scale below.scale ≠ 0 := by positivity
  have divisible : below.mantissaAt (max above.scale below.scale) ≠ 0 := by
    intro zero
    rw [zero, Int.cast_zero, zero_div] at lower
    exact nonzero lower.symm
  obtain ⟨quotient, divided, same⟩ := ofRatio_of_ne_zero
    (above.mantissaAt (max above.scale below.scale)) divisible
  refine ⟨quotient, divided, ?_⟩
  rw [same, ← upper, ← lower, div_div_div_cancel_right₀ power]

end Fraction

end FractionCalculator
