import FractionCalculator.Calculator.Button

/-!
A session: the calculator on its screen, and the events that reach it.
-/

namespace FractionCalculator

structure Session where
  calculator : Calculator := {}
  stepsShown : Bool := false
deriving DecidableEq, Repr

inductive Event
  | press (button : Button)
  | toggleSteps
  | escape
  | enter
  | precision (wanted : Int)
  | redraw
deriving DecidableEq, Repr

def Calculator.draw (calculator : Calculator) : Calculator :=
  { calculator with focused := false }

def clampDigits (wanted : Int) : Nat := min wanted.toNat maximumDigits

namespace Session

/-- What the frame of an event makes of the calculator. The enter key takes the keyboard from the entry,
and evaluates only in a frame that gives it back. -/
def respond (calculator : Calculator) : Event → Calculator
  | .press button => calculator.draw.press button
  | .toggleSteps => calculator.draw
  | .escape => calculator.clearEntry.draw
  | .enter => if calculator.focused then calculator.draw.calculate else calculator.draw
  | .precision wanted =>
      if clampDigits wanted = calculator.digits then
        calculator.draw
      else
        calculator.draw.setDigits (clampDigits wanted)
  | .redraw => calculator.draw

def handle (session : Session) (event : Event) : Session :=
  { calculator := respond session.calculator event
    stepsShown := if event = .toggleSteps then !session.stepsShown else session.stepsShown }

end Session

end FractionCalculator
