import FractionCalculator.Fraction.Basic

/-!
The four operators, and what each does to two fractions.
-/

namespace FractionCalculator

inductive Operator
  | add
  | subtract
  | multiply
  | divide
deriving DecidableEq, Repr

namespace Operator

def all : List Operator := [add, subtract, multiply, divide]

def symbol : Operator → Char
  | add => '+'
  | subtract => '-'
  | multiply => '*'
  | divide => '/'

def ofSymbol? : Char → Option Operator
  | '+' => some add
  | '-' => some subtract
  | '*' => some multiply
  | '/' => some divide
  | _ => none

def name : Operator → String
  | add => "add"
  | subtract => "sub"
  | multiply => "mul"
  | divide => "div"

def apply : Operator → Fraction → Fraction → Except CalculationError Fraction
  | add, left, right => .ok (left + right)
  | subtract, left, right => .ok (left - right)
  | multiply, left, right => .ok (left * right)
  | divide, left, right => left.divide right

theorem ofSymbol?_eq_some_iff (character : Char) (operator : Operator) :
    ofSymbol? character = some operator ↔ character = operator.symbol := by
  constructor
  · intro found
    unfold ofSymbol? at found
    split at found <;> simp_all [symbol] <;> subst found <;> rfl
  · rintro rfl
    cases operator <;> rfl

end Operator

end FractionCalculator
