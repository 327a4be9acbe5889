import Mathlib
import FractionCalculator.Fraction.Rounding
import FractionCalculator.Proofs.Fraction.Rational

/-!
The remaining arithmetic in the rational numbers: sizes, inverses, powers, fraction parts, the smaller
and the larger of two.
-/

namespace FractionCalculator.Fraction

theorem num_toRat (value : Fraction) : value.toRat.num = value.numerator :=
  Rat.num_div_eq_of_coprime (Int.natCast_pos.mpr value.denominator_pos) value.reduced

theorem den_toRat (value : Fraction) : value.toRat.den = value.denominator :=
  Int.ofNat.inj
    (Rat.den_div_eq_of_coprime (Int.natCast_pos.mpr value.denominator_pos) value.reduced)

@[simp] theorem toRat_oneHalf : oneHalf.toRat = 1 / 2 := by
  rw [oneHalf, toRat_reduce, Int.cast_one, Nat.cast_ofNat]

@[simp] theorem toRat_oneThird : oneThird.toRat = 1 / 3 := by
  rw [oneThird, toRat_reduce, Int.cast_one, Nat.cast_ofNat]

theorem abs_toRat (value : Fraction) :
    |value.toRat| = value.numerator.natAbs / value.denominator := by
  rw [toRat, abs_div, Nat.abs_cast, Nat.cast_natAbs, Int.cast_abs]

theorem abs_toRat_lt_one_iff (value : Fraction) :
    |value.toRat| < 1 ↔ value.numerator.natAbs < value.denominator := by
  rw [abs_toRat, div_lt_one value.cast_denominator_pos, Nat.cast_lt]

@[simp] theorem toRat_abs (value : Fraction) : value.abs.toRat = |value.toRat| := by
  rw [abs_toRat]
  rfl

@[simp] theorem toRat_fractionPart (value : Fraction) :
    value.fractionPart.toRat = Int.fract |value.toRat| := by
  rw [fractionPart, toRat_reduce, abs_toRat, Int.cast_natCast,
    Int.fract_div_natCast_eq_div_natCast_mod]

theorem inverse_of_zero {value : Fraction} (zero : value.toRat = 0) :
    value.inverse = .error .divisionByZero := by
  rw [inverse, (toRat_eq_zero_iff value).mp zero]
  exact ofRatio_zero _

theorem inverse_toRat {value : Fraction} (nonzero : value.toRat ≠ 0) :
    ∃ result, value.inverse = .ok result ∧ result.toRat = value.toRat⁻¹ := by
  obtain ⟨result, inverted, same⟩ :=
    ofRatio_of_ne_zero value.denominator (mt (toRat_eq_zero_iff value).mpr nonzero)
  refine ⟨result, inverted, ?_⟩
  rw [same, toRat, inv_div, Int.cast_natCast]

theorem power_of_zero {value : Fraction} (zero : value.toRat = 0) {exponent : Int}
    (negative : exponent < 0) : value.power exponent = .error .divisionByZero := by
  have nothing : Int.pow 0 exponent.natAbs = 0 := zero_pow (Int.natAbs_ne_zero.mpr negative.ne)
  rw [power, if_pos negative, (toRat_eq_zero_iff value).mp zero, nothing]
  exact ofRatio_zero _

theorem power_toRat {value : Fraction} {exponent : Int}
    (defined : value.toRat ≠ 0 ∨ 0 ≤ exponent) :
    ∃ result, value.power exponent = .ok result ∧ result.toRat = value.toRat ^ exponent := by
  have whole : (((Nat.pow value.denominator exponent.natAbs : ℕ) : ℤ) : ℚ) =
      (value.denominator : ℚ) ^ exponent.natAbs := by
    rw [Int.cast_natCast, Nat.pow_eq, Nat.cast_pow]
  have signed : ((Int.pow value.numerator exponent.natAbs : ℤ) : ℚ) =
      (value.numerator : ℚ) ^ exponent.natAbs := Int.cast_pow _ _
  by_cases negative : exponent < 0
  · -- The two powers change places, so it is the numerator that must not be zero.
    have nonzero : value.numerator ≠ 0 :=
      mt (toRat_eq_zero_iff value).mpr (defined.resolve_right (not_le.mpr negative))
    obtain ⟨result, raised, same⟩ := ofRatio_of_ne_zero
      (Nat.pow value.denominator exponent.natAbs : ℕ) (pow_ne_zero exponent.natAbs nonzero)
    refine ⟨result, (if_pos negative).trans raised, ?_⟩
    have size : exponent = -(exponent.natAbs : ℤ) := by omega
    rw [same, whole, Int.cast_pow, ← inv_div, ← div_pow, ← toRat, ← zpow_natCast, ← zpow_neg,
      ← size]
  · have positive : ((Nat.pow value.denominator exponent.natAbs : ℕ) : ℤ) ≠ 0 :=
      Int.natCast_ne_zero.mpr (Nat.pow_pos value.denominator_pos).ne'
    obtain ⟨result, raised, same⟩ :=
      ofRatio_of_ne_zero (Int.pow value.numerator exponent.natAbs) positive
    refine ⟨result, (if_neg negative).trans raised, ?_⟩
    have size : exponent = (exponent.natAbs : ℤ) := by omega
    rw [same, whole, signed, ← div_pow, ← toRat, ← zpow_natCast, ← size]

theorem compare_eq_gt_iff (left right : Fraction) :
    compare left right = .gt ↔ right.toRat < left.toRat := by
  rw [compare_toRat, compare_gt_iff_gt]

@[simp] theorem toRat_min (left right : Fraction) :
    (min left right).toRat = min left.toRat right.toRat := by
  change (if compare left right = .gt then right else left).toRat = _
  by_cases later : compare left right = .gt
  · rw [if_pos later, min_eq_right ((compare_eq_gt_iff left right).mp later).le]
  · rw [if_neg later, min_eq_left (not_lt.mp (mt (compare_eq_gt_iff left right).mpr later))]

@[simp] theorem toRat_max (left right : Fraction) :
    (max left right).toRat = max left.toRat right.toRat := by
  change (if compare left right = .gt then left else right).toRat = _
  by_cases later : compare left right = .gt
  · rw [if_pos later, max_eq_left ((compare_eq_gt_iff left right).mp later).le]
  · rw [if_neg later, max_eq_right (not_lt.mp (mt (compare_eq_gt_iff left right).mpr later))]

end FractionCalculator.Fraction
