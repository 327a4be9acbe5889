import FractionCalculator.Calculator.Session

/-!
What a calculator displays. Its fields are set one by one, and each operation either leaves all of them
alone or sets them to one outcome: nothing, an error, or a result with its steps.
-/

namespace FractionCalculator

inductive Outcome
  | cleared
  | failed (message : String)
  | solved (readings : Readings) (steps : Steps)

namespace Outcome

def available : Outcome → Bool
  | solved _ _ => true
  | cleared | failed _ => false

def error : Outcome → String
  | failed message => message
  | cleared | solved _ _ => ""

def readings : Outcome → Readings
  | solved readings _ => readings
  | cleared | failed _ => {}

def steps : Outcome → Steps
  | solved _ steps => steps
  | cleared | failed _ => {}

theorem error_of_available {outcome : Outcome} (available : outcome.available = true) :
    outcome.error = "" := by
  cases outcome with
  | solved readings steps => rfl
  | cleared | failed => cases available

theorem empty_of_not_available {outcome : Outcome} (missing : outcome.available = false) :
    outcome.readings = {} ∧ outcome.steps = {} := by
  cases outcome with
  | solved readings steps => cases missing
  | cleared | failed => exact ⟨rfl, rfl⟩

end Outcome

theorem Malformation.message_ne_empty (malformation : Malformation) :
    malformation.message ≠ "" := by
  rw [message]
  split <;> simp

theorem CalculationError.message_ne_empty (error : CalculationError) : error.message ≠ "" := by
  unfold message
  cases error with
  | divisionByZero | invalidFormat => simp
  | malformed malformation => exact malformation.message_ne_empty

namespace Calculator

/-- The fields hold one outcome, and nothing is left in them of another. -/
structure Displays (calculator : Calculator) (outcome : Outcome) : Prop where
  available : calculator.available = outcome.available
  error : calculator.error = outcome.error
  readings : calculator.readings = outcome.readings
  steps : calculator.steps = outcome.steps

structure DisplaysLike (calculator other : Calculator) : Prop where
  available : calculator.available = other.available
  error : calculator.error = other.error
  readings : calculator.readings = other.readings
  steps : calculator.steps = other.steps

namespace DisplaysLike

variable {calculator other last : Calculator}

theorem refl (calculator : Calculator) : calculator.DisplaysLike calculator :=
  ⟨rfl, rfl, rfl, rfl⟩

theorem symm (same : calculator.DisplaysLike other) : other.DisplaysLike calculator :=
  ⟨same.available.symm, same.error.symm, same.readings.symm, same.steps.symm⟩

theorem trans (first : calculator.DisplaysLike other) (second : other.DisplaysLike last) :
    calculator.DisplaysLike last :=
  ⟨first.available.trans second.available, first.error.trans second.error,
    first.readings.trans second.readings, first.steps.trans second.steps⟩

theorem displays (same : calculator.DisplaysLike other) {outcome : Outcome}
    (shown : other.Displays outcome) : calculator.Displays outcome :=
  ⟨same.available.trans shown.available, same.error.trans shown.error,
    same.readings.trans shown.readings, same.steps.trans shown.steps⟩

end DisplaysLike

variable (calculator : Calculator)

theorem draw_like : calculator.draw.DisplaysLike calculator :=
  ⟨rfl, rfl, rfl, rfl⟩

theorem clearEntry_like : calculator.clearEntry.DisplaysLike calculator :=
  ⟨rfl, rfl, rfl, rfl⟩

theorem setDigits_like (digits : Nat) : (calculator.setDigits digits).DisplaysLike calculator :=
  ⟨rfl, rfl, rfl, rfl⟩

theorem clearOutcome_displays : calculator.clearOutcome.Displays .cleared :=
  ⟨rfl, rfl, rfl, rfl⟩

theorem reset_displays : calculator.reset.Displays .cleared :=
  ⟨rfl, rfl, rfl, rfl⟩

theorem reset_eq : calculator.reset = {} :=
  rfl

theorem fail_displays (message : String) : (calculator.fail message).Displays (.failed message) :=
  ⟨rfl, rfl, rfl, rfl⟩

theorem solve_displays (evaluation : Evaluation) :
    (calculator.solve evaluation).Displays (.solved evaluation.readings evaluation.steps) :=
  ⟨rfl, rfl, rfl, rfl⟩

variable {calculator}

theorem calculate_of_isEmpty (empty : (trimBlanks calculator.entry).isEmpty = true) :
    calculator.calculate = calculator.fail "Entrée vide" := by
  rw [calculate, if_pos empty]

theorem calculate_of_ok {evaluation : Evaluation}
    (nonempty : ¬(trimBlanks calculator.entry).isEmpty = true)
    (solved : Evaluation.ofText (trimBlanks calculator.entry) calculator.digits = .ok evaluation) :
    calculator.calculate = calculator.solve evaluation := by
  rw [calculate, if_neg nonempty, solved]

theorem calculate_of_error {error : CalculationError}
    (nonempty : ¬(trimBlanks calculator.entry).isEmpty = true)
    (failed : Evaluation.ofText (trimBlanks calculator.entry) calculator.digits = .error error) :
    calculator.calculate = calculator.fail error.message := by
  rw [calculate, if_neg nonempty, failed]

variable (calculator)

theorem calculate_cases :
    (∃ message, message ≠ "" ∧ calculator.calculate = calculator.fail message) ∨
      ∃ evaluation,
        Evaluation.ofText (trimBlanks calculator.entry) calculator.digits = .ok evaluation ∧
        calculator.calculate = calculator.solve evaluation := by
  by_cases empty : (trimBlanks calculator.entry).isEmpty = true
  · exact .inl ⟨"Entrée vide", by simp, calculate_of_isEmpty empty⟩
  · cases found : Evaluation.ofText (trimBlanks calculator.entry) calculator.digits with
    | error error =>
        exact .inl ⟨error.message, error.message_ne_empty, calculate_of_error empty found⟩
    | ok evaluation => exact .inr ⟨evaluation, rfl, calculate_of_ok empty found⟩

theorem calculate_entry : calculator.calculate.entry = calculator.entry := by
  rcases calculator.calculate_cases with ⟨_, _, ends⟩ | ⟨_, _, ends⟩
  · rw [ends, fail]
  · rw [ends, solve]

theorem calculate_digits : calculator.calculate.digits = calculator.digits := by
  rcases calculator.calculate_cases with ⟨_, _, ends⟩ | ⟨_, _, ends⟩
  · rw [ends, fail]
  · rw [ends, solve]

theorem calculate_focused : calculator.calculate.focused = true := by
  rcases calculator.calculate_cases with ⟨_, _, ends⟩ | ⟨_, _, ends⟩
  · rw [ends, fail]
  · rw [ends, solve]

theorem calculate_available_iff :
    calculator.calculate.available = true ↔ calculator.calculate.error = "" := by
  rcases calculator.calculate_cases with ⟨message, nonempty, ends⟩ | ⟨evaluation, _, ends⟩
  · rw [ends]
    exact iff_of_false Bool.false_ne_true nonempty
  · rw [ends]
    exact iff_of_true rfl rfl

end Calculator

end FractionCalculator
