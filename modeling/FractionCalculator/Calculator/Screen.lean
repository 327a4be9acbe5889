import FractionCalculator.Calculator.Session

/-!
The texts on the screen, from top to bottom.
-/

namespace FractionCalculator

def entryHint : String := "Ex: 1/3 + 0.25, -(2 - 7)(3), 1 * -(2 * -3)"

def Readings.screen (readings : Readings) : List String :=
  ["Fraction :", readings.fraction, "Entier :", readings.integer, "Décimal :", readings.decimal,
    "Mixte :", readings.mixed, "Pourcentage :", readings.percent]

def Steps.screen (steps : Steps) : List String :=
  ["Jetons :", steps.tokens, "Arbre :", steps.tree, "Noeuds :", steps.nodes.repr, "Note :", steps.note]

def Session.screen (session : Session) : List String :=
  let calculator := session.calculator
  let entry := if calculator.entry.isEmpty then entryHint else calculator.entry
  let texts :=
    ["Calculatrice rationnelle", "Entrée :", entry] ++
    Button.clearing.map Button.label ++
    ["Précision :", calculator.digits.repr ++ " chiffres"] ++
    (Button.signs ++ [Button.equals] ++ Button.keypad).map Button.label ++
    ["Fonctions reconnues, non implémentées : " ++ " ".intercalate sortedFunctionNames,
      calculator.error] ++
    (if calculator.available then calculator.readings.screen else ["aucun résultat"]) ++
    ["Démarche"] ++
    if session.stepsShown then calculator.steps.screen else []
  texts.filter fun text => !text.isEmpty

end FractionCalculator
