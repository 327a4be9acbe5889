/-!
What can go wrong between a text and its value, and the message shown for it.
-/

namespace FractionCalculator

structure Malformation where
  expected : String
  found : Option String
  position : Option Nat
  expression : String
deriving DecidableEq, Repr

def Malformation.message (malformation : Malformation) : String :=
  let quoted := "\"" ++ malformation.expression ++ "\""
  match malformation.found, malformation.position with
  | some found, some position =>
      "attendu " ++ malformation.expected ++ ", mais trouvé '" ++ found ++ "' dans " ++ quoted ++
        " à l'index " ++ toString position
  | some found, none =>
      "attendu " ++ malformation.expected ++ ", mais trouvé '" ++ found ++ "' dans " ++ quoted
  | none, _ =>
      "attendu " ++ malformation.expected ++ ", mais fin de l'expression atteinte : " ++ quoted

inductive CalculationError
  | divisionByZero
  | invalidFormat (text : String)
  | malformed (malformation : Malformation)
deriving DecidableEq, Repr

def CalculationError.message : CalculationError → String
  | divisionByZero => "division par zéro"
  | invalidFormat text => "format numérique invalide : '" ++ text ++ "' (ex: '3/4' ou '2.5')"
  | malformed malformation => malformation.message

end FractionCalculator
