import FractionCalculator.Expression.Parser
import FractionCalculator.Expression.Worklist

/-!
From the text of an expression to its value, the readings of the value, and the steps to it.
-/

namespace FractionCalculator

structure Readings where
  fraction : String := ""
  integer : String := ""
  decimal : String := ""
  mixed : String := ""
  percent : String := ""
deriving DecidableEq, Repr

structure Steps where
  tokens : String := ""
  tree : String := ""
  nodes : Nat := 0
  note : String := ""
deriving DecidableEq, Repr

structure Evaluation where
  value : Fraction
  readings : Readings
  steps : Steps

def Readings.ofFraction (value : Fraction) (places : Nat) : Readings :=
  { fraction := value.text
    integer := value.integerPart.repr
    decimal := value.decimal places
    mixed := value.mixedText
    percent := value.percent places }

def Steps.ofExpression (text : String) (expression : Expression) : Steps :=
  { tokens := Token.listing (tokensOf text)
    tree := expression.render
    nodes := expression.nodeCount
    note := "Pipeline: jetons → arbre (priorités + / -, * /) → rationnel exact → lectures." }

/-- Evaluates a text, the blanks at its ends left out, with so many places in its decimal texts. -/
def Evaluation.ofText (text : String) (places : Nat) : Except CalculationError Evaluation :=
  let trimmed := trimBlanks text
  match Expression.parse trimmed with
  | .error malformation => .error (.malformed malformation)
  | .ok expression =>
      match expression.evaluate with
      | .error error => .error error
      | .ok value => .ok ⟨value, .ofFraction value places, .ofExpression trimmed expression⟩

end FractionCalculator
