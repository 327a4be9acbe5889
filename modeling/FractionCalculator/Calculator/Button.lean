import FractionCalculator.Calculator.Basic

/-!
The buttons, and what each does to the calculator.
-/

namespace FractionCalculator

inductive Key
  | opening
  | closing
  | operator (sign : Operator)
  | digit (value : Fin 10)
  | doubleZero
  | point
deriving DecidableEq, Repr

def Key.text : Key → String
  | opening => "("
  | closing => ")"
  | operator sign => String.singleton sign.symbol
  | digit value => value.val.repr
  | doubleZero => "00"
  | point => "."

def dropTrailingSpaces (entry : String) : String :=
  String.ofList (dropTrailing (fun character => character == ' ') entry.toList)

/-- The entry after a key. An operator stands between spaces, a closing parenthesis after none. -/
def Key.insert (key : Key) (entry : String) : String :=
  match key with
  | closing => dropTrailingSpaces entry ++ key.text
  | operator _ =>
      let before := dropTrailingSpaces entry
      (if before.isEmpty then before else before ++ " ") ++ key.text ++ " "
  | _ => entry ++ key.text

def deleteLast (entry : String) : String :=
  dropTrailingSpaces (String.ofList (dropTrailingSpaces entry).toList.dropLast)

inductive Button
  | clearEntry
  | clearOutcome
  | reset
  | delete
  | equals
  | key (pressed : Key)
deriving DecidableEq, Repr

namespace Button

def label : Button → String
  | clearEntry => "C"
  | clearOutcome => "CLR"
  | reset => "AC"
  | delete => "DEL"
  | equals => "="
  | key pressed => pressed.text

def clearing : List Button := [clearEntry, clearOutcome, reset]

def signs : List Button :=
  [key .opening, key .closing] ++ Operator.all.map fun sign => key (.operator sign)

def keypad : List Button :=
  [key (.digit 7), key (.digit 8), key (.digit 9), delete,
    key (.digit 4), key (.digit 5), key (.digit 6), key .point,
    key (.digit 1), key (.digit 2), key (.digit 3), key .doubleZero,
    key (.digit 0)]

def all : List Button := clearing ++ signs ++ [equals] ++ keypad

def ofLabel? (text : String) : Option Button :=
  all.find? fun button => button.label == text

end Button

def Calculator.press (calculator : Calculator) : Button → Calculator
  | .clearEntry => calculator.clearEntry
  | .clearOutcome => calculator.clearOutcome
  | .reset => calculator.reset
  | .delete => { calculator with entry := deleteLast calculator.entry, focused := true }
  | .equals => calculator.calculate
  | .key pressed => { calculator with entry := pressed.insert calculator.entry, focused := true }

end FractionCalculator
