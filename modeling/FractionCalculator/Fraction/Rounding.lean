import FractionCalculator.Decimal.Places
import FractionCalculator.Fraction.Basic

/-!
Whole numbers beside a fraction: truncated, below, above, nearest.
-/

namespace FractionCalculator.Fraction

def integerPart (value : Fraction) : Int := value.numerator.tdiv value.denominator

def fractionPart (value : Fraction) : Fraction :=
  reduce (value.numerator.natAbs % value.denominator : Nat) value.denominator value.denominator_pos

def floor (value : Fraction) : Int := value.numerator / value.denominator

def ceil (value : Fraction) : Int := -(-value.numerator / value.denominator)

/-- The whole number nearest to `value * 10 ^ places`, a half going away from zero. -/
def scaledHalfUp (value : Fraction) (places : Nat) : Int :=
  let magnitude := roundHalfUp (value.numerator.natAbs * Nat.pow 10 places) value.denominator
  if value.numerator < 0 then -magnitude else magnitude

def round (value : Fraction) : Int := value.scaledHalfUp 0

end FractionCalculator.Fraction
