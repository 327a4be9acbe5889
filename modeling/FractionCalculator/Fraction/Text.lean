import FractionCalculator.Fraction.Rounding

/-!
The texts of a fraction: as a fraction, as a mixed number, in decimal and in percent.
-/

namespace FractionCalculator.Fraction

def text (value : Fraction) : String :=
  if value.isInteger then
    value.numerator.repr
  else
    value.numerator.repr ++ "/" ++ value.denominator.repr

def mixedText (value : Fraction) : String :=
  if value.isInteger || value.integerPart == 0 then
    value.text
  else
    value.integerPart.repr ++ " " ++ value.fractionPart.text

def decimal (value : Fraction) (places : Nat) : String :=
  decimalText (value.scaledHalfUp places) places

def maximumPlaces : Nat := Nat.pow 2 32 - 1

def percent (value : Fraction) (places : Nat) : String :=
  -- Rounded to two places more than are written, as far as these can be counted.
  decimalText (value.scaledHalfUp (min (places + 2) maximumPlaces)) places ++ "%"

instance : ToString Fraction := ⟨text⟩

end FractionCalculator.Fraction
