import Mathlib
import FractionCalculator.Proofs.Fraction.Laws

/-!
Fractions of decimal literals. The quotient of two literals is the quotient of their fractions, and only
the numbers count, not the zeros that the literals are written with.
-/

namespace FractionCalculator

namespace DecimalLiteral

def padded (literal : DecimalLiteral) (zeros : Nat) : DecimalLiteral :=
  ⟨literal.mantissa * 10 ^ zeros, literal.scale + zeros⟩

@[simp] theorem toRat_padded (literal : DecimalLiteral) (zeros : Nat) :
    (literal.padded zeros).toRat = literal.toRat := by
  have power : (10 : ℚ) ^ zeros ≠ 0 := by positivity
  rw [toRat, padded, Int.cast_mul, Int.cast_pow, Int.cast_ofNat, pow_add,
    mul_div_mul_right _ _ power, toRat]

/-- The mantissa at another scale. There is none at a scale smaller than that of the literal. -/
def mantissaAt? (literal : DecimalLiteral) (scale : Nat) : Option Int :=
  (scale.psub literal.scale).map fun zeros => literal.mantissa * 10 ^ zeros

theorem mantissaAt?_of_le (literal : DecimalLiteral) {scale : Nat}
    (larger : literal.scale ≤ scale) :
    literal.mantissaAt? scale = some (literal.mantissaAt scale) := by
  rw [mantissaAt?, Nat.psub_eq_sub larger, Option.map_some, mantissaAt]
  push_cast [Nat.pow_eq]
  rfl

end DecimalLiteral

namespace Fraction

theorem ofLiteral_congr {literal other : DecimalLiteral} (same : literal.toRat = other.toRat) :
    ofLiteral literal = ofLiteral other := by
  apply toRat_injective
  rw [toRat_ofLiteral, toRat_ofLiteral, same]

theorem divide_ofLiteral (above below : DecimalLiteral) :
    (ofLiteral above).divide (ofLiteral below) = ofLiteralPair above below := by
  by_cases zero : below.toRat = 0
  · rw [ofLiteralPair_of_zero above zero]
    apply divide_of_zero
    rwa [← toRat_eq_zero_iff, toRat_ofLiteral]
  · obtain ⟨quotient, divided, same⟩ := ofLiteralPair_of_ne_zero above zero
    obtain ⟨other, otherDivided, otherSame⟩ :=
      (ofLiteral above).divide_toRat (toRat_ofLiteral below ▸ zero)
    rw [divided, otherDivided]
    congr 1
    apply toRat_injective
    rw [same, otherSame, toRat_ofLiteral, toRat_ofLiteral]

theorem ofLiteralPair_congr {above otherAbove below otherBelow : DecimalLiteral}
    (sameAbove : above.toRat = otherAbove.toRat) (sameBelow : below.toRat = otherBelow.toRat) :
    ofLiteralPair above below = ofLiteralPair otherAbove otherBelow := by
  rw [← divide_ofLiteral, ← divide_ofLiteral, ofLiteral_congr sameAbove,
    ofLiteral_congr sameBelow]

theorem ofLiteralPair_error_iff (above below : DecimalLiteral) (error : CalculationError) :
    ofLiteralPair above below = .error error ↔ below.mantissa = 0 ∧ error = .divisionByZero := by
  rw [← divide_ofLiteral, (divide_denotes _ _).error_iff, not_not, toRat_ofLiteral,
    DecimalLiteral.toRat_eq_zero_iff]

def ofLiteralPair? (above below : DecimalLiteral) :
    Option (Except CalculationError Fraction) := do
  let scale := max above.scale below.scale
  let upper ← above.mantissaAt? scale
  let lower ← below.mantissaAt? scale
  return ofRatio upper lower

theorem ofLiteralPair?_eq_some (above below : DecimalLiteral) :
    ofLiteralPair? above below = some (ofLiteralPair above below) := by
  have upper := above.mantissaAt?_of_le (le_max_left above.scale below.scale)
  have lower := below.mantissaAt?_of_le (le_max_right above.scale below.scale)
  simp only [ofLiteralPair?, upper, lower, Option.bind_eq_bind, Option.bind_some]
  rfl

/-- A common scale gives the quotient of the two fractions, down to a division by zero, and is never
below the scale of either literal. Zeros at the end of a literal change nothing. -/
theorem ofLiteralPair_coherent (above below : DecimalLiteral) :
    ofLiteralPair above below = (ofLiteral above).divide (ofLiteral below) ∧
    (∀ error, ofLiteralPair above below = .error error ↔
      below.mantissa = 0 ∧ error = .divisionByZero) ∧
    (∀ zeros, ofLiteral (above.padded zeros) = ofLiteral above) ∧
    (∀ zeros otherZeros, ofLiteralPair (above.padded zeros) (below.padded otherZeros) =
      ofLiteralPair above below) ∧
    ofLiteralPair? above below = some (ofLiteralPair above below) := by
  refine ⟨(divide_ofLiteral above below).symm, ofLiteralPair_error_iff above below, ?_, ?_,
    ofLiteralPair?_eq_some above below⟩
  · intro zeros
    exact ofLiteral_congr (above.toRat_padded zeros)
  · intro zeros otherZeros
    exact ofLiteralPair_congr (above.toRat_padded zeros) (below.toRat_padded otherZeros)

end Fraction

end FractionCalculator
