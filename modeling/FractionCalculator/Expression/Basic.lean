import FractionCalculator.Fraction.Parser
import FractionCalculator.Token

/-!
Expressions: number tokens joined by the four operators, with the size, the text and the value that
follow their shape.
-/

namespace FractionCalculator

inductive Expression
  | literal (token : Token)
  | binary (operator : Operator) (left right : Expression)
deriving DecidableEq, Repr

namespace Expression

def number (digits : String) : Expression := literal ⟨.number, digits⟩

def size : Expression → Nat
  | literal _ => 1
  | binary _ left right => 1 + left.size + right.size

def text : Expression → String
  | literal token => token.text
  | binary operator left right =>
      operator.name ++ "(" ++ left.text ++ ", " ++ right.text ++ ")"

def value : Expression → Except CalculationError Fraction
  | literal token => Fraction.ofText token.text
  | binary operator left right => do
      let leftValue ← left.value
      let rightValue ← right.value
      operator.apply leftValue rightValue

end Expression

end FractionCalculator
