import Mathlib
import FractionCalculator.Proofs.Fraction.Arithmetic

/-!
The order of fractions is the order of the rational numbers. It is total, agrees with equality and goes
with the arithmetic.
-/

namespace FractionCalculator.Fraction

instance : Std.TransOrd Fraction where
  eq_swap {left right} := by
    rw [compare_toRat, compare_toRat right left]
    exact Std.OrientedOrd.eq_swap
  isLE_trans {left middle right} first second := by
    rw [compare_toRat] at first second ⊢
    exact Std.TransOrd.isLE_trans first second

instance : Std.LawfulEqOrd Fraction where
  compare_self {value} := by
    rw [compare_toRat]
    exact Std.ReflOrd.compare_self
  eq_of_compare {left right} equal := by
    rw [compare_toRat, compare_eq_iff_eq] at equal
    exact toRat_injective equal

theorem compare_sub (left right : Fraction) :
    compare left right = compare (left - right).toRat 0 := by
  rw [compare_toRat, toRat_sub, ← cmp_eq_compare, ← cmp_eq_compare, cmp_sub_zero]

theorem compare_add_right (left right shift : Fraction) :
    compare (left + shift) (right + shift) = compare left right := by
  rw [compare_toRat, compare_toRat left right, toRat_add, toRat_add, ← cmp_eq_compare,
    ← cmp_eq_compare, cmp_add_right]

theorem compare_mul_right (left right : Fraction) {factor : Fraction}
    (positive : 0 < factor.toRat) :
    compare (left * factor) (right * factor) = compare left right := by
  rw [compare_toRat, compare_toRat left right, toRat_mul, toRat_mul, ← cmp_eq_compare,
    ← cmp_eq_compare, cmp_mul_pos_right positive]

theorem compare_neg (left right : Fraction) : compare (-left) (-right) = compare right left := by
  rw [compare_sub, compare_sub right left, toRat_sub, toRat_sub, toRat_neg, toRat_neg,
    neg_sub_neg]

/-- Two fractions compare as their difference compares with zero, and this is a total order on
fractions: antisymmetric, transitive, kept by sums and by positive factors, and reversed by a change of
sign. -/
theorem compare_total_order (left right other : Fraction) :
    (compare left right = .lt ↔ (left - right).toRat < 0) ∧
    (compare left right = .eq ↔ (left - right).toRat = 0) ∧
    (compare left right = .gt ↔ 0 < (left - right).toRat) ∧
    (compare left right = .eq ↔ (left == right) = true) ∧
    compare right left = (compare left right).swap ∧
    ((compare left right).isLE = true → (compare right left).isLE = true → left = right) ∧
    ((compare left right).isLE = true → (compare right other).isLE = true →
      (compare left other).isLE = true) ∧
    compare (left + other) (right + other) = compare left right ∧
    (0 < other.toRat → compare (left * other) (right * other) = compare left right) ∧
    compare (-left) (-right) = compare right left ∧
    (min left right).toRat = min left.toRat right.toRat ∧
    (max left right).toRat = max left.toRat right.toRat := by
  refine ⟨?_, ?_, ?_, ?_, Std.OrientedOrd.eq_swap, ?_,
    Std.TransOrd.isLE_trans, compare_add_right left right other, compare_mul_right left right,
    compare_neg left right, toRat_min left right, toRat_max left right⟩
  · rw [compare_sub, compare_lt_iff_lt]
  · rw [compare_sub, compare_eq_iff_eq]
  · rw [compare_sub, compare_gt_iff_gt]
  · rw [beq_iff_eq, Std.LawfulEqOrd.compare_eq_iff_eq]
  · intro below above
    exact Std.LawfulEqOrd.eq_of_compare (Std.OrientedCmp.isLE_antisymm below above)

theorem compare_of_thirds :
    (compare (-oneHalf) (-oneThird)).isLE = true ∧
    (compare (-oneThird) oneHalf).isLE = true ∧
    (compare (-oneHalf) oneHalf).isLE = true ∧
    0 < oneHalf.toRat ∧
    compare (-oneHalf * oneHalf) (-oneThird * oneHalf) = compare (-oneHalf) (-oneThird) ∧
    (compare (oneThird + oneThird + oneThird) (ofInt 1)).isLE = true ∧
    (compare (ofInt 1) (oneThird + oneThird + oneThird)).isLE = true ∧
    oneThird + oneThird + oneThird = ofInt 1 := by
  have first : (compare (-oneHalf) (-oneThird)).isLE = true := by decide +kernel
  have second : (compare (-oneThird) oneHalf).isLE = true := by decide +kernel
  have positive : 0 < oneHalf.toRat := by simp
  have below : (compare (oneThird + oneThird + oneThird) (ofInt 1)).isLE = true := by
    decide +kernel
  have above : (compare (ofInt 1) (oneThird + oneThird + oneThird)).isLE = true := by
    decide +kernel
  obtain ⟨_, _, _, _, _, _, transitive, _, scaled, _⟩ :=
    compare_total_order (-oneHalf) (-oneThird) oneHalf
  obtain ⟨_, _, _, _, _, antisymmetric, _⟩ :=
    compare_total_order (oneThird + oneThird + oneThird) (ofInt 1) oneHalf
  exact ⟨first, second, transitive first second, positive, scaled positive, below, above,
    antisymmetric below above⟩

end FractionCalculator.Fraction
