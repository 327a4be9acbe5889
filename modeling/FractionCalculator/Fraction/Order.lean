import FractionCalculator.Fraction.Basic

/-!
The order of fractions, decided on cross products.
-/

namespace FractionCalculator.Fraction

instance : Ord Fraction where
  compare left right :=
    compare (left.numerator * right.denominator) (right.numerator * left.denominator)

instance : Min Fraction where
  min left right := if compare left right = .gt then right else left

instance : Max Fraction where
  max left right := if compare left right = .gt then left else right

end FractionCalculator.Fraction
