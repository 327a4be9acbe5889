import FractionCalculator.Evaluation

/-!
The calculator between two key presses.
-/

namespace FractionCalculator

def defaultDigits : Nat := 3

def maximumDigits : Nat := 200

/-- A focused calculator gives the keyboard to its entry in the next frame that is drawn. -/
structure Calculator where
  entry : String := ""
  readings : Readings := {}
  error : String := ""
  available : Bool := false
  steps : Steps := {}
  digits : Nat := defaultDigits
  focused : Bool := true
deriving DecidableEq, Repr

namespace Calculator

def clearEntry (calculator : Calculator) : Calculator :=
  { calculator with entry := "", focused := true }

def clearOutcome (calculator : Calculator) : Calculator :=
  { calculator with readings := {}, error := "", available := false, steps := {}, focused := true }

def reset (calculator : Calculator) : Calculator :=
  let cleared := { calculator with entry := "" }.clearOutcome
  { cleared with digits := defaultDigits, focused := true }

def fail (calculator : Calculator) (message : String) : Calculator :=
  { calculator with
    error := message, readings := {}, available := false, steps := {}, focused := true }

def solve (calculator : Calculator) (evaluation : Evaluation) : Calculator :=
  { calculator with
    error := ""
    readings := evaluation.readings
    steps := evaluation.steps
    available := true
    focused := true }

def setDigits (calculator : Calculator) (digits : Nat) : Calculator :=
  { calculator with digits := min digits maximumDigits, focused := true }

def calculate (calculator : Calculator) : Calculator :=
  let text := trimBlanks calculator.entry
  if text.isEmpty then
    calculator.fail "Entrée vide"
  else
    match Evaluation.ofText text calculator.digits with
    | .error error => calculator.fail error.message
    | .ok evaluation => calculator.solve evaluation

end Calculator

end FractionCalculator
