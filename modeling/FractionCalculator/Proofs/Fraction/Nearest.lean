import Mathlib
import FractionCalculator.Fraction.Text
import FractionCalculator.Proofs.Decimal.Writing
import FractionCalculator.Proofs.Fraction.Reading

/-!
Decimal texts show the nearest number with so many places. A number that lies half-way between two of
them is shown as the one further from zero.
-/

namespace FractionCalculator

open DecimalLiteral

/-- The nearest whole number, a half going away from zero. -/
def nearest (number : ℚ) : ℤ := if number < 0 then -round (-number) else round number

theorem nearest_of_nonneg {number : ℚ} (nonneg : 0 ≤ number) : nearest number = round number :=
  if_neg (not_lt.mpr nonneg)

theorem nearest_neg (number : ℚ) : nearest (-number) = -nearest number := by
  rcases lt_trichotomy number 0 with negative | rfl | positive
  · rw [nearest_of_nonneg (by linarith), nearest, if_pos negative, neg_neg]
  · simp [nearest]
  · rw [nearest_of_nonneg positive.le, nearest, if_pos (by linarith), neg_neg]

theorem nearest_intCast (number : ℤ) : nearest number = number := by
  by_cases negative : (number : ℚ) < 0
  · rw [nearest, if_pos negative, ← Int.cast_neg, round_intCast, neg_neg]
  · rw [nearest, if_neg negative, round_intCast]

theorem abs_nearest_sub (number : ℚ) : |nearest number - number| ≤ 1 / 2 := by
  by_cases negative : number < 0
  · have near := abs_sub_round (-number)
    rw [nearest, if_pos negative, Int.cast_neg]
    rwa [neg_sub_comm] at near
  · rw [nearest, if_neg negative, abs_sub_comm]
    exact abs_sub_round number

theorem round_le_round {lower upper : ℚ} (below : lower ≤ upper) : round lower ≤ round upper := by
  rw [round_eq, round_eq]
  exact Int.floor_mono (by linarith)

theorem round_nonneg {number : ℚ} (nonneg : 0 ≤ number) : 0 ≤ round number := by
  have zero : round (0 : ℚ) = 0 := round_zero
  rw [← zero]
  exact round_le_round nonneg

theorem nearest_mono : Monotone nearest := by
  intro lower upper below
  by_cases upperNegative : upper < 0
  · have lowerNegative : lower < 0 := by linarith
    rw [nearest, nearest, if_pos lowerNegative, if_pos upperNegative, neg_le_neg_iff]
    exact round_le_round (by linarith)
  · by_cases lowerNegative : lower < 0
    · have lowerShown : 0 ≤ round (-lower) := round_nonneg (by linarith)
      have upperShown : 0 ≤ round upper := round_nonneg (by linarith)
      rw [nearest, nearest, if_pos lowerNegative, if_neg upperNegative]
      omega
    · rw [nearest, nearest, if_neg lowerNegative, if_neg upperNegative]
      exact round_le_round below

theorem round_half (whole : ℤ) : round ((whole : ℚ) + 1 / 2) = whole + 1 := by
  rw [round_intCast_add, one_div, round_two_inv]

theorem abs_lt_abs_nearest {number : ℚ} {whole : ℤ} (half : number = whole + 1 / 2) :
    |number| < |(nearest number : ℚ)| := by
  wlog nonneg : 0 ≤ number generalizing number whole with mirror
  · have mirrored : -number = ((-whole - 1 : ℤ) : ℚ) + 1 / 2 := by
      rw [half]
      push_cast
      ring
    have further := mirror mirrored (by linarith)
    rwa [nearest_neg, Int.cast_neg, abs_neg, abs_neg] at further
  · rw [nearest_of_nonneg nonneg, half, round_half, ← half, abs_of_nonneg nonneg, half]
    push_cast
    rw [abs_of_nonneg (by linarith)]
    linarith

theorem roundHalfUp_eq_div (numerator : Nat) {denominator : Nat} (positive : 0 < denominator) :
    roundHalfUp numerator denominator = (2 * numerator + denominator) / (2 * denominator) := by
  have split := Nat.div_add_mod numerator denominator
  have short : numerator % denominator < denominator := Nat.mod_lt _ positive
  rw [roundHalfUp]
  generalize numerator / denominator = quotient at split ⊢
  generalize numerator % denominator = remainder at split short ⊢
  have double : 2 * numerator + denominator =
      (2 * remainder + denominator) + 2 * denominator * quotient := by
    rw [← split]
    ring
  rw [double, Nat.add_mul_div_left _ _ (by omega)]
  split_ifs with high
  · have one : (2 * remainder + denominator) / (2 * denominator) = 1 :=
      Nat.div_eq_of_lt_le (by omega) (by omega)
    omega
  · rw [Nat.div_eq_of_lt (by omega), Nat.zero_add]

theorem roundHalfUp_eq (numerator : Nat) {denominator : Nat} (positive : 0 < denominator) :
    (roundHalfUp numerator denominator : ℤ) = nearest ((numerator : ℚ) / denominator) := by
  have nonzero : (denominator : ℚ) ≠ 0 := Nat.cast_ne_zero.mpr positive.ne'
  have half : (numerator : ℚ) / denominator + 1 / 2 =
      ((2 * numerator + denominator : ℕ) : ℤ) / ((2 * denominator : ℕ) : ℚ) := by
    push_cast
    field_simp
  rw [roundHalfUp_eq_div numerator positive, nearest_of_nonneg (by positivity), round_eq, half,
    Rat.floor_intCast_div_natCast]
  exact Int.natCast_div _ _

namespace Fraction

theorem scaledHalfUp_eq (value : Fraction) (places : Nat) :
    value.scaledHalfUp places = nearest (value.toRat * 10 ^ places) := by
  have magnitude : (roundHalfUp (value.numerator.natAbs * Nat.pow 10 places) value.denominator : ℤ) =
      nearest (|value.toRat| * 10 ^ places) := by
    rw [roundHalfUp_eq _ value.denominator_pos, toRat, abs_div, Nat.abs_cast, div_mul_eq_mul_div]
    push_cast [Nat.pow_eq, Nat.cast_natAbs]
    rfl
  by_cases negative : value.numerator < 0
  · have below := value.toRat_lt_zero_iff.mpr negative
    simp only [scaledHalfUp, negative, if_true]
    rw [magnitude, abs_of_neg below, neg_mul, nearest_neg, neg_neg]
  · have above := value.toRat_nonneg_iff.mpr (not_lt.mp negative)
    simp only [scaledHalfUp, negative, if_false]
    rw [magnitude, abs_of_nonneg above]

theorem scaledHalfUp_neg (value : Fraction) (places : Nat) :
    (-value).scaledHalfUp places = -value.scaledHalfUp places := by
  rw [scaledHalfUp_eq, scaledHalfUp_eq, toRat_neg, neg_mul, nearest_neg]

def rounded (value : Fraction) (places : Nat) : Fraction :=
  ofLiteral ⟨value.scaledHalfUp places, places⟩

theorem toRat_rounded_mul (value : Fraction) (places : Nat) :
    (value.rounded places).toRat * 10 ^ places = value.scaledHalfUp places := by
  have power : (10 : ℚ) ^ places ≠ 0 := by positivity
  rw [rounded, toRat_ofLiteral, DecimalLiteral.toRat, div_mul_cancel₀ _ power]

theorem ofText_decimal (value : Fraction) {places : Nat} (counted : places < 2 ^ 32) :
    ofText (value.decimal places) = .ok (value.rounded places) := by
  have short : places ≤ maximumScale := by
    rw [maximumScale, Nat.pow_eq]
    omega
  exact ofText_of_read? (read?_decimalText _ short)

theorem abs_rounded_sub (value : Fraction) (places : Nat) :
    |(value.rounded places).toRat - value.toRat| ≤ 1 / 2 * (10 ^ places)⁻¹ := by
  have power : (0 : ℚ) < 10 ^ places := by positivity
  have near := abs_nearest_sub (value.toRat * 10 ^ places)
  rw [← scaledHalfUp_eq, ← toRat_rounded_mul, ← sub_mul, abs_mul, abs_of_pos power] at near
  rwa [← div_eq_mul_inv, le_div_iff₀ power]

theorem abs_lt_abs_rounded {value : Fraction} {places : Nat} {whole : ℤ}
    (half : value.toRat * 10 ^ places = whole + 1 / 2) :
    |value.toRat| < |(value.rounded places).toRat| := by
  have power : (0 : ℚ) < 10 ^ places := by positivity
  have further := abs_lt_abs_nearest half
  rw [← scaledHalfUp_eq, ← toRat_rounded_mul, abs_mul, abs_mul] at further
  exact lt_of_mul_lt_mul_right further (abs_nonneg _)

theorem decimal_rounded (value : Fraction) (places : Nat) :
    (value.rounded places).decimal places = value.decimal places := by
  rw [decimal, decimal, scaledHalfUp_eq (value.rounded places), toRat_rounded_mul,
    nearest_intCast]

theorem rounded_mono {lower upper : Fraction} (below : lower.toRat ≤ upper.toRat) (places : Nat) :
    (lower.rounded places).toRat ≤ (upper.rounded places).toRat := by
  have power : (0 : ℚ) < 10 ^ places := by positivity
  have shown : (nearest (lower.toRat * 10 ^ places) : ℚ) ≤ nearest (upper.toRat * 10 ^ places) :=
    Int.cast_le.mpr (nearest_mono (mul_le_mul_of_nonneg_right below power.le))
  rw [← scaledHalfUp_eq, ← scaledHalfUp_eq, ← toRat_rounded_mul, ← toRat_rounded_mul] at shown
  exact le_of_mul_le_mul_right shown power

theorem toRat_rounded_eq_zero_iff (value : Fraction) (places : Nat) :
    (value.rounded places).toRat = 0 ↔ value.scaledHalfUp places = 0 := by
  rw [rounded, toRat_ofLiteral, DecimalLiteral.toRat_eq_zero_iff]

theorem decimal_neg {value : Fraction} (positive : 0 < value.toRat) (places : Nat) :
    (-value).decimal places =
      if (value.rounded places).toRat = 0 then value.decimal places
      else "-" ++ value.decimal places := by
  have power : (0 : ℚ) < 10 ^ places := by positivity
  rw [decimal, scaledHalfUp_neg]
  split_ifs with zero
  · rw [toRat_rounded_eq_zero_iff] at zero
    rw [decimal, zero, neg_zero]
  · rw [toRat_rounded_eq_zero_iff] at zero
    apply decimalText_neg
    have nonneg : 0 ≤ value.scaledHalfUp places := by
      rw [scaledHalfUp_eq, ← nearest_intCast 0]
      apply nearest_mono
      rw [Int.cast_zero]
      exact (mul_pos positive power).le
    omega

/-- A decimal text is read as the multiple of `10 ^ -places` that is nearest to the number, a half
going away from zero. The texts keep the order of the numbers, a negative number is shown like its
absolute value with a sign before it unless nothing but zero is left, and the number shown is shown
by the same text. -/
theorem decimal_nearest {places : Nat} (counted : places < 2 ^ 32) :
    (∀ value : Fraction, ∃ shown, ofText (value.decimal places) = .ok shown ∧
      (∃ whole : ℤ, shown.toRat * 10 ^ places = whole) ∧
      |shown.toRat - value.toRat| ≤ 1 / 2 * (10 ^ places)⁻¹ ∧
      (∀ whole : ℤ, value.toRat * 10 ^ places = whole + 1 / 2 → |value.toRat| < |shown.toRat|) ∧
      (0 < value.toRat → (-value).decimal places =
        if shown.toRat = 0 then value.decimal places else "-" ++ value.decimal places) ∧
      shown.decimal places = value.decimal places) ∧
    ∀ lower upper lowerShown upperShown : Fraction, (compare lower upper).isLE = true →
      ofText (lower.decimal places) = .ok lowerShown →
      ofText (upper.decimal places) = .ok upperShown →
      (compare lowerShown upperShown).isLE = true := by
  refine ⟨?_, ?_⟩
  · intro value
    exact ⟨value.rounded places, value.ofText_decimal counted,
      ⟨_, value.toRat_rounded_mul places⟩, value.abs_rounded_sub places,
      fun _ half => abs_lt_abs_rounded half, fun positive => decimal_neg positive places,
      value.decimal_rounded places⟩
  · intro lower upper lowerShown upperShown below lowerRead upperRead
    rw [ofText_decimal _ counted, Except.ok.injEq] at lowerRead upperRead
    subst lowerRead upperRead
    rw [compare_isLE_iff] at below ⊢
    exact rounded_mono below places

theorem decimal_minus_one_eighth : 2 < 2 ^ 32 ∧ ∃ shown,
    ofText ((reduce (-1) 8 (by decide)).decimal 2) = .ok shown ∧
      |(-1 / 8 : ℚ)| < |shown.toRat| ∧ shown.decimal 2 = "-0.13" := by
  have eighth : (reduce (-1) 8 (by decide)).toRat = -1 / 8 := by
    rw [toRat_reduce]
    norm_num
  obtain ⟨shown, read, _, _, tie, _, same⟩ :=
    (decimal_nearest (by decide : 2 < 2 ^ 32)).1 (reduce (-1) 8 (by decide))
  refine ⟨by decide, shown, read, ?_, ?_⟩
  · rw [← eighth]
    apply tie (-13)
    rw [eighth]
    norm_num
  · rw [same]
    decide +kernel

end Fraction

end FractionCalculator
