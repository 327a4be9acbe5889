import FractionCalculator.Lexeme

/-!
Why an expression is refused: what was expected, and what stood there instead.
-/

namespace FractionCalculator

def maximumNesting : Nat := 256

inductive Expectation
  | operand
  | operandWithoutFunctions
  | opening
  | closing
  | shallowerNesting
  | operatorOrParenthesis
  | operatorOrEnd
deriving DecidableEq, Repr

def Expectation.text : Expectation → String
  | operand => "un nombre ou une parenthèse"
  | operandWithoutFunctions => "un nombre ou une parenthèse (fonctions non implémentées)"
  | opening => "'('"
  | closing => "')'"
  | shallowerNesting => "au plus " ++ maximumNesting.repr ++ " niveaux de parenthèses"
  | operatorOrParenthesis => "un opérateur ou une parenthèse"
  | operatorOrEnd => "un opérateur ou la fin de l'expression"

structure Refusal where
  expected : Expectation
  found : Option (String × Nat)
deriving DecidableEq, Repr

namespace Refusal

def atEnd (expected : Expectation) : Refusal := ⟨expected, none⟩

def onReading (expected : Expectation) (located : Located) : Refusal :=
  ⟨expected, some (located.lexeme.text, located.start)⟩

/-- Refuses a lexeme that was only looked at, of which no more than the first character is known. -/
def onSight (expected : Expectation) (located : Located) : Refusal :=
  ⟨expected, some (located.lexeme.lead, located.start)⟩

def malformation (refusal : Refusal) (expression : String) : Malformation :=
  { expected := refusal.expected.text
    found := refusal.found.map Prod.fst
    position := refusal.found.map Prod.snd
    expression := expression }

end Refusal

end FractionCalculator
