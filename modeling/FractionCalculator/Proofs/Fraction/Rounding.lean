import Mathlib
import FractionCalculator.Proofs.Fraction.Arithmetic
import FractionCalculator.Proofs.Fraction.Nearest

/-!
The whole numbers beside a fraction: below, above, towards zero and nearest. Each of them rounds the
same number, so they fit together, and the decimal texts without places and in percent fit to them.
-/

namespace FractionCalculator

theorem nearest_eq_floor_or_succ {number : ℚ} (nonneg : 0 ≤ number) :
    nearest number = if Int.fract number < 1 / 2 then ⌊number⌋ else ⌊number⌋ + 1 := by
  have split := Int.floor_add_fract number
  have least := Int.fract_nonneg number
  have most := Int.fract_lt_one number
  rw [nearest_of_nonneg nonneg, round_eq]
  split_ifs with low
  · rw [Int.floor_eq_iff]
    constructor <;> linarith
  · rw [Int.floor_eq_iff, Int.cast_add, Int.cast_one]
    constructor <;> linarith

namespace Fraction

@[simp] theorem floor_eq (value : Fraction) : value.floor = ⌊value.toRat⌋ := by
  rw [toRat, Rat.floor_intCast_div_natCast]
  rfl

@[simp] theorem ceil_eq (value : Fraction) : value.ceil = ⌈value.toRat⌉ := by
  have mirrored : value.ceil = -(-value).floor := rfl
  rw [mirrored, floor_eq, toRat_neg, Int.floor_neg, neg_neg]

theorem toRat_neg_nonneg {value : Fraction} (nonpos : value.toRat ≤ 0) : 0 ≤ (-value).toRat := by
  rw [toRat_neg]
  exact neg_nonneg.mpr nonpos

theorem integerPart_of_nonneg {value : Fraction} (nonneg : 0 ≤ value.toRat) :
    value.integerPart = ⌊value.toRat⌋ := by
  have dividend : 0 ≤ value.numerator := value.toRat_nonneg_iff.mp nonneg
  rw [← floor_eq, integerPart, Int.tdiv_eq_ediv_of_nonneg dividend]
  rfl

theorem integerPart_neg (value : Fraction) : (-value).integerPart = -value.integerPart :=
  Int.neg_tdiv _ _

theorem integerPart_nonneg {value : Fraction} (nonneg : 0 ≤ value.toRat) :
    0 ≤ value.integerPart := by
  rw [integerPart_of_nonneg nonneg]
  exact Int.floor_nonneg.mpr nonneg

theorem integerPart_nonpos {value : Fraction} (nonpos : value.toRat ≤ 0) :
    value.integerPart ≤ 0 := by
  have mirrored := integerPart_nonneg (toRat_neg_nonneg nonpos)
  rw [integerPart_neg] at mirrored
  omega

theorem integerPart_eq (value : Fraction) :
    value.integerPart = if value.toRat < 0 then value.ceil else value.floor := by
  split_ifs with negative
  · have mirrored := integerPart_of_nonneg (toRat_neg_nonneg negative.le)
    rw [integerPart_neg, toRat_neg, Int.floor_neg] at mirrored
    rw [ceil_eq]
    omega
  · rw [integerPart_of_nonneg (not_lt.mp negative), floor_eq]

theorem abs_integerPart (value : Fraction) : |value.integerPart| = ⌊|value.toRat|⌋ := by
  wlog nonneg : 0 ≤ value.toRat generalizing value with mirror
  · have mirrored := mirror (-value) (toRat_neg_nonneg (not_le.mp nonneg).le)
    rwa [integerPart_neg, toRat_neg, abs_neg, abs_neg] at mirrored
  · rw [integerPart_of_nonneg nonneg, abs_of_nonneg nonneg,
      abs_of_nonneg (Int.floor_nonneg.mpr nonneg)]

theorem abs_integerPart_add_fractionPart (value : Fraction) :
    |(value.integerPart : ℚ)| + value.fractionPart.toRat = |value.toRat| := by
  rw [← Int.cast_abs, abs_integerPart, toRat_fractionPart, Int.floor_add_fract]

theorem round_eq_nearest (value : Fraction) : value.round = nearest value.toRat := by
  rw [round, scaledHalfUp_eq, pow_zero, mul_one]

theorem round_neg (value : Fraction) : (-value).round = -value.round :=
  scaledHalfUp_neg value 0

theorem round_of_nonneg {value : Fraction} (nonneg : 0 ≤ value.toRat) :
    value.round = if value.fractionPart.toRat < 1 / 2 then value.integerPart
      else value.integerPart + 1 := by
  rw [round_eq_nearest, nearest_eq_floor_or_succ nonneg, toRat_fractionPart,
    integerPart_of_nonneg nonneg, abs_of_nonneg nonneg]

theorem round_eq_away (value : Fraction) :
    value.round = if value.fractionPart.toRat < 1 / 2 then value.integerPart
      else if value.toRat < 0 then value.integerPart - 1 else value.integerPart + 1 := by
  by_cases negative : value.toRat < 0
  · -- The fraction part is the same on both sides of zero, so the mirrored number rounds alike.
    have mirrored := round_of_nonneg (toRat_neg_nonneg negative.le)
    rw [round_neg, integerPart_neg, toRat_fractionPart, toRat_neg, abs_neg,
      ← toRat_fractionPart] at mirrored
    rw [if_pos negative]
    split_ifs at mirrored ⊢ <;> omega
  · rw [if_neg negative, round_of_nonneg (not_lt.mp negative)]

theorem decimal_zero (value : Fraction) : value.decimal 0 = value.round.repr :=
  decimalText_zero _

/-- The whole part lies towards zero, on the side of the floor or of the ceiling, and the fraction part
is what it leaves of the size. The nearest whole number is the whole part, or from a half on the next one
away from zero, and it is what the decimal text without places shows. -/
theorem roundings_coherent (value : Fraction) :
    ((value.floor : ℚ) ≤ value.toRat ∧ value.toRat < value.floor + 1) ∧
    (value.ceil - 1 < value.toRat ∧ value.toRat ≤ value.ceil) ∧
    value.ceil = -(-value).floor ∧
    value.integerPart = (if value.toRat < 0 then value.ceil else value.floor) ∧
    (0 ≤ value.fractionPart.toRat ∧ value.fractionPart.toRat < 1) ∧
    |value.toRat| = |(value.integerPart : ℚ)| + value.fractionPart.toRat ∧
    value.round = (if value.fractionPart.toRat < 1 / 2 then value.integerPart
      else if value.toRat < 0 then value.integerPart - 1 else value.integerPart + 1) ∧
    value.decimal 0 = value.round.repr := by
  refine ⟨?_, ?_, ?_, value.integerPart_eq, ?_, value.abs_integerPart_add_fractionPart.symm,
    value.round_eq_away, value.decimal_zero⟩
  · rw [floor_eq]
    exact ⟨Int.floor_le _, Int.lt_floor_add_one _⟩
  · rw [ceil_eq]
    exact ⟨by linarith [Int.ceil_lt_add_one value.toRat], Int.le_ceil _⟩
  · rw [ceil_eq, floor_eq, toRat_neg, Int.floor_neg, neg_neg]
  · rw [toRat_fractionPart]
    exact ⟨Int.fract_nonneg _, Int.fract_lt_one _⟩

theorem scaledHalfUp_mul_power (value : Fraction) (places more : Nat) :
    (ofInt (10 ^ more) * value).scaledHalfUp places = value.scaledHalfUp (places + more) := by
  have same : (ofInt (10 ^ more) * value).toRat * 10 ^ places =
      value.toRat * 10 ^ (places + more) := by
    rw [toRat_mul, toRat_ofInt, pow_add, Int.cast_pow, Int.cast_ofNat]
    ring
  rw [scaledHalfUp_eq, scaledHalfUp_eq, same]

theorem percent_eq_decimal_power (value : Fraction) {places : Nat} (counted : places < 2 ^ 32) :
    value.percent places =
      (ofInt (10 ^ min 2 (2 ^ 32 - 1 - places)) * value).decimal places ++ "%" := by
  have moved : min (places + 2) maximumPlaces = places + min 2 (2 ^ 32 - 1 - places) := by
    rw [maximumPlaces, Nat.pow_eq]
    omega
  rw [percent, moved, decimal, scaledHalfUp_mul_power]

/-- The percentage of a number is the decimal text of its hundredfold. -/
theorem percent_eq_decimal (value : Fraction) {places : Nat} (counted : places ≤ 2 ^ 32 - 3) :
    value.percent places = (ofInt 100 * value).decimal places ++ "%" := by
  have room : min 2 (2 ^ 32 - 1 - places) = 2 := by omega
  have hundred : (10 : Int) ^ 2 = 100 := by norm_num
  rw [percent_eq_decimal_power value (by omega), room, hundred]

theorem percent_minus_one_eighth : 2 ≤ 2 ^ 32 - 3 ∧
    (reduce (-1) 800 (by decide)).percent 2 =
      (ofInt 100 * reduce (-1) 800 (by decide)).decimal 2 ++ "%" ∧
    (reduce (-1) 800 (by decide)).percent 2 = "-0.13%" := by
  have counted : 2 ≤ 2 ^ 32 - 3 := by decide
  exact ⟨counted, percent_eq_decimal (reduce (-1) 800 (by decide)) counted, by decide +kernel⟩

end Fraction

end FractionCalculator
