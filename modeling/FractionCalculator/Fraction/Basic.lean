import FractionCalculator.Error

/-!
Exact fractions in lowest terms, and their arithmetic.
-/

namespace FractionCalculator

/-- A fraction in lowest terms. The numerator carries the sign, and zero is `0 / 1`. -/
structure Fraction where
  numerator : Int
  denominator : Nat
  denominator_pos : 0 < denominator
  reduced : numerator.natAbs.gcd denominator = 1
deriving DecidableEq

namespace Fraction

def reduce (numerator : Int) (denominator : Nat) (positive : 0 < denominator) : Fraction :=
  let divisor := numerator.natAbs.gcd denominator
  have divisor_pos : 0 < divisor := Nat.gcd_pos_of_pos_right _ positive
  { numerator := numerator / divisor
    denominator := denominator / divisor
    denominator_pos := Nat.div_gcd_pos_of_pos_right _ positive
    reduced := by
      rw [Int.natAbs_ediv_of_dvd (Int.ofNat_dvd_left.mpr (Nat.gcd_dvd_left _ _))]
      exact Nat.coprime_div_gcd_div_gcd divisor_pos }

def ofRatio (numerator denominator : Int) : Except CalculationError Fraction :=
  if nonzero : denominator = 0 then
    .error .divisionByZero
  else
    .ok (reduce (denominator.sign * numerator) denominator.natAbs (Int.natAbs_pos.mpr nonzero))

def ofInt (value : Int) : Fraction :=
  { numerator := value, denominator := 1, denominator_pos := by decide, reduced := Nat.gcd_one_right _ }

def oneHalf : Fraction := reduce 1 2 (by decide)

def oneThird : Fraction := reduce 1 3 (by decide)

def add (left right : Fraction) : Fraction :=
  reduce (left.numerator * right.denominator + right.numerator * left.denominator)
    (left.denominator * right.denominator)
    (Nat.mul_pos left.denominator_pos right.denominator_pos)

def sub (left right : Fraction) : Fraction :=
  reduce (left.numerator * right.denominator - right.numerator * left.denominator)
    (left.denominator * right.denominator)
    (Nat.mul_pos left.denominator_pos right.denominator_pos)

def mul (left right : Fraction) : Fraction :=
  reduce (left.numerator * right.numerator) (left.denominator * right.denominator)
    (Nat.mul_pos left.denominator_pos right.denominator_pos)

def neg (value : Fraction) : Fraction :=
  { value with
    numerator := -value.numerator
    reduced := by rw [Int.natAbs_neg]; exact value.reduced }

def abs (value : Fraction) : Fraction :=
  { value with
    numerator := value.numerator.natAbs
    reduced := by rw [Int.natAbs_natCast]; exact value.reduced }

instance : Add Fraction := ⟨add⟩
instance : Sub Fraction := ⟨sub⟩
instance : Mul Fraction := ⟨mul⟩
instance : Neg Fraction := ⟨neg⟩

def divide (left right : Fraction) : Except CalculationError Fraction :=
  ofRatio (left.numerator * right.denominator) (left.denominator * right.numerator)

def inverse (value : Fraction) : Except CalculationError Fraction :=
  ofRatio value.denominator value.numerator

def power (value : Fraction) (exponent : Int) : Except CalculationError Fraction :=
  let numerator := Int.pow value.numerator exponent.natAbs
  let denominator : Int := (Nat.pow value.denominator exponent.natAbs : Nat)
  if exponent < 0 then ofRatio denominator numerator else ofRatio numerator denominator

def isZero (value : Fraction) : Bool := value.numerator == 0

def isOne (value : Fraction) : Bool := value.numerator == 1 && value.denominator == 1

def isInteger (value : Fraction) : Bool := value.denominator == 1

def isProper (value : Fraction) : Bool := value.numerator.natAbs < value.denominator

def isNegative (value : Fraction) : Bool := value.numerator < 0

end Fraction

end FractionCalculator
