/-!
Decimal texts with a fixed number of places, and the rounding that comes before them.
-/

namespace FractionCalculator

def roundHalfUp (numerator denominator : Nat) : Nat :=
  if denominator ≤ 2 * (numerator % denominator) then
    numerator / denominator + 1
  else
    numerator / denominator

def decimalText (scaled : Int) (places : Nat) : String :=
  let sign := if scaled < 0 then "-" else ""
  let whole := scaled.natAbs / Nat.pow 10 places
  let fraction := scaled.natAbs % Nat.pow 10 places
  if places = 0 then
    sign ++ whole.repr
  else
    sign ++ whole.repr ++ "." ++ String.ofList (fraction.repr.toList.leftpad places '0')

end FractionCalculator
