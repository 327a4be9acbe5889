import Mathlib.Data.List.Induction
import FractionCalculator.Proofs.Calculator.Outcome

/-!
What stays on the calculator over a history of actions: the outcome is that of the last action that
settled one, and it is never older than an error or a clearing.
-/

namespace FractionCalculator

structure Solution where
  text : String
  digits : Nat
  evaluation : Evaluation
  bounded : digits ≤ maximumDigits
  solved : Evaluation.ofText text digits = .ok evaluation

inductive Action
  | event (event : Event)
  | setEntry (text : String)
  | setDigits (digits : Nat)
  | fail (message : String)
  | solve (solution : Solution)
  | clearEntry
  | clearOutcome
  | reset

namespace Calculator

def perform (calculator : Calculator) : Action → Calculator
  | .event event => Session.respond calculator event
  | .setEntry text => { calculator with entry := text }
  | .setDigits digits => calculator.setDigits digits
  | .fail message => calculator.fail message
  | .solve solution => calculator.solve solution.evaluation
  | .clearEntry => calculator.clearEntry
  | .clearOutcome => calculator.clearOutcome
  | .reset => calculator.reset

def after (actions : List Action) : Calculator := actions.foldl perform {}

end Calculator

inductive Action.Calculates (calculator : Calculator) : Action → Prop
  | equals : Calculates calculator (.event (.press .equals))
  | enter (focused : calculator.focused = true) : Calculates calculator (.event .enter)

inductive Action.Evaluates (calculator : Calculator) : Action → String → Nat → Prop
  | entry {action : Action} (calculates : action.Calculates calculator) :
      Evaluates calculator action (trimBlanks calculator.entry) calculator.digits
  | solution (solution : Solution) :
      Evaluates calculator (.solve solution) (trimBlanks solution.text) solution.digits

inductive Action.Discards : Action → Prop
  | pressClearOutcome : Discards (.event (.press .clearOutcome))
  | pressReset : Discards (.event (.press .reset))
  | fail (message : String) : Discards (.fail message)
  | clearOutcome : Discards .clearOutcome
  | reset : Discards .reset

def Action.Settles (calculator : Calculator) (action : Action) : Prop :=
  (∃ text digits, action.Evaluates calculator text digits) ∨ action.Discards

inductive Action.Edits : Action → Prop
  | key (pressed : Key) : Edits (.event (.press (.key pressed)))
  | delete : Edits (.event (.press .delete))
  | pressClearEntry : Edits (.event (.press .clearEntry))
  | escape : Edits (.event .escape)
  | precision (wanted : Int) : Edits (.event (.precision wanted))
  | setEntry (text : String) : Edits (.setEntry text)
  | setDigits (digits : Nat) : Edits (.setDigits digits)
  | clearEntry : Edits .clearEntry

/-- The text and the places of the last evaluation, in a history that has settled nothing since. -/
inductive LastEvaluated : List Action → String → Nat → Prop
  | now {actions : List Action} {action : Action} {text : String} {digits : Nat}
      (evaluates : action.Evaluates (Calculator.after actions) text digits) :
      LastEvaluated (actions ++ [action]) text digits
  | earlier {actions : List Action} {action : Action} {text : String} {digits : Nat}
      (last : LastEvaluated actions text digits)
      (kept : ¬action.Settles (Calculator.after actions)) :
      LastEvaluated (actions ++ [action]) text digits

theorem Evaluation.ofText_trimBlanks (text : String) (places : Nat) :
    Evaluation.ofText (trimBlanks text) places = Evaluation.ofText text places := by
  rw [ofText, ofText, trimBlanks_trimBlanks]

namespace Calculator

theorem after_concat (actions : List Action) (action : Action) :
    after (actions ++ [action]) = (after actions).perform action := by
  rw [after, List.foldl_concat]
  rfl

theorem defaultDigits_le : defaultDigits ≤ maximumDigits := by
  decide

theorem setDigits_digits (calculator : Calculator) (digits : Nat) :
    (calculator.setDigits digits).digits ≤ maximumDigits :=
  Nat.min_le_right digits maximumDigits

theorem calculate_congr {calculator other : Calculator} (entry : calculator.entry = other.entry)
    (digits : calculator.digits = other.digits) : calculator.calculate = other.calculate :=
  -- All other fields are overwritten, and none of them is read.
  calc calculator.calculate
    _ = calculate { entry := calculator.entry, digits := calculator.digits } := rfl
    _ = calculate { entry := other.entry, digits := other.digits } := by rw [entry, digits]
    _ = other.calculate := rfl

theorem perform_of_calculates {calculator : Calculator} {action : Action}
    (calculates : action.Calculates calculator) :
    calculator.perform action = calculator.calculate := by
  have drawn : calculator.draw.calculate = calculator.calculate := calculate_congr rfl rfl
  cases calculates with
  | equals => exact drawn
  | enter focused =>
      rw [perform, Session.respond, if_pos focused]
      exact drawn

theorem perform_of_discards {action : Action} (discards : action.Discards)
    (calculator : Calculator) :
    ∃ outcome : Outcome, outcome.available = false ∧
      (calculator.perform action).Displays outcome := by
  cases discards with
  | pressClearOutcome => exact ⟨.cleared, rfl, clearOutcome_displays _⟩
  | pressReset => exact ⟨.cleared, rfl, reset_displays _⟩
  | fail message => exact ⟨.failed message, rfl, fail_displays _ message⟩
  | clearOutcome => exact ⟨.cleared, rfl, clearOutcome_displays _⟩
  | reset => exact ⟨.cleared, rfl, reset_displays _⟩

theorem perform_of_not_settles {calculator : Calculator} {action : Action}
    (kept : ¬action.Settles calculator) :
    (calculator.perform action).DisplaysLike calculator := by
  rw [Action.Settles, not_or] at kept
  obtain ⟨noEvaluation, noDiscard⟩ := kept
  cases action with
  | event event =>
      cases event with
      | press button =>
          cases button with
          | clearEntry =>
              rw [perform, Session.respond, press]
              exact calculator.draw.clearEntry_like.trans calculator.draw_like
          | delete | key =>
              rw [perform, Session.respond, press]
              exact ⟨rfl, rfl, rfl, rfl⟩
          | clearOutcome => exact absurd .pressClearOutcome noDiscard
          | reset => exact absurd .pressReset noDiscard
          | equals => exact absurd ⟨_, _, .entry .equals⟩ noEvaluation
      | enter =>
          by_cases focused : calculator.focused = true
          · exact absurd ⟨_, _, .entry (.enter focused)⟩ noEvaluation
          · rw [perform, Session.respond, if_neg focused]
            exact calculator.draw_like
      | precision wanted =>
          rw [perform, Session.respond]
          split
          · exact calculator.draw_like
          · exact (calculator.draw.setDigits_like _).trans calculator.draw_like
      | escape => exact calculator.clearEntry.draw_like.trans calculator.clearEntry_like
      | toggleSteps | redraw => exact calculator.draw_like
  | setEntry text => exact ⟨rfl, rfl, rfl, rfl⟩
  | setDigits digits => exact calculator.setDigits_like digits
  | clearEntry => exact calculator.clearEntry_like
  | fail message => exact absurd (.fail message) noDiscard
  | solve solution => exact absurd ⟨_, _, .solution solution⟩ noEvaluation
  | clearOutcome => exact absurd .clearOutcome noDiscard
  | reset => exact absurd .reset noDiscard

theorem perform_of_evaluates {calculator : Calculator} {action : Action} {text : String}
    {digits : Nat} (evaluates : action.Evaluates calculator text digits) :
    ∃ outcome, (calculator.perform action).Displays outcome ∧
      (outcome.available = false ∨ ∃ evaluation, Evaluation.ofText text digits = .ok evaluation ∧
        outcome = .solved evaluation.readings evaluation.steps) := by
  cases evaluates with
  | entry calculates =>
      rw [perform_of_calculates calculates]
      rcases calculator.calculate_cases with ⟨message, _, failed⟩ | ⟨evaluation, found, solved⟩
      · rw [failed]
        exact ⟨_, calculator.fail_displays message, .inl rfl⟩
      · rw [solved]
        exact ⟨_, calculator.solve_displays evaluation, .inr ⟨evaluation, found, rfl⟩⟩
  | solution solution =>
      refine ⟨_, solve_displays _ solution.evaluation, .inr ⟨solution.evaluation, ?_, rfl⟩⟩
      rw [Evaluation.ofText_trimBlanks]
      exact solution.solved

theorem perform_digits {calculator : Calculator} (bounded : calculator.digits ≤ maximumDigits)
    (action : Action) : (calculator.perform action).digits ≤ maximumDigits := by
  cases action with
  | event event =>
      cases event with
      | press button =>
          cases button with
          | clearEntry | clearOutcome | delete | key =>
              dsimp only [perform, Session.respond, press, clearEntry, clearOutcome, draw]
              exact bounded
          | reset => exact defaultDigits_le
          | equals =>
              rw [perform_of_calculates .equals, calculate_digits]
              exact bounded
      | enter =>
          by_cases focused : calculator.focused = true
          · rw [perform_of_calculates (.enter focused), calculate_digits]
            exact bounded
          · rw [perform, Session.respond, if_neg focused]
            exact bounded
      | precision wanted =>
          rw [perform, Session.respond]
          split
          · exact bounded
          · exact setDigits_digits calculator.draw (clampDigits wanted)
      | toggleSteps | escape | redraw => exact bounded
  | setDigits digits => exact setDigits_digits calculator digits
  | reset => exact defaultDigits_le
  | setEntry | fail | solve | clearEntry | clearOutcome => exact bounded

theorem after_digits (actions : List Action) : (after actions).digits ≤ maximumDigits := by
  induction actions using List.reverseRecOn with
  | nil => decide
  | append_singleton actions action ih =>
      rw [after_concat]
      exact perform_digits ih action

end Calculator

theorem Action.Edits.not_settles {action : Action} (edits : action.Edits)
    (calculator : Calculator) : ¬action.Settles calculator := by
  rintro (⟨text, digits, evaluates⟩ | discards)
  · cases evaluates with
    | entry calculates => cases calculates <;> cases edits
    | solution solution => cases edits
  · cases discards <;> cases edits

theorem Action.Evaluates.digits_le {calculator : Calculator} {action : Action} {text : String}
    {digits : Nat} (evaluates : action.Evaluates calculator text digits)
    (bounded : calculator.digits ≤ maximumDigits) : digits ≤ maximumDigits := by
  cases evaluates with
  | entry calculates => exact bounded
  | solution solution => exact solution.bounded

theorem LastEvaluated.digits_le {actions : List Action} {text : String} {digits : Nat}
    (last : LastEvaluated actions text digits) : digits ≤ maximumDigits := by
  induction last with
  | now evaluates => exact evaluates.digits_le (Calculator.after_digits _)
  | earlier last kept ih => exact ih

/-- What is displayed after a history is one outcome, and a result in it is that of the last
evaluation. -/
theorem displays_after (actions : List Action) :
    ∃ outcome, (Calculator.after actions).Displays outcome ∧
      (outcome.available = false ∨ ∃ text digits evaluation, LastEvaluated actions text digits ∧
        Evaluation.ofText text digits = .ok evaluation ∧
        outcome = .solved evaluation.readings evaluation.steps) := by
  induction actions using List.reverseRecOn with
  | nil => exact ⟨.cleared, ⟨rfl, rfl, rfl, rfl⟩, .inl rfl⟩
  | append_singleton actions action ih =>
      rw [Calculator.after_concat]
      -- Only an action that settles the outcome can be its origin. All others leave it as it was.
      by_cases settles : action.Settles (Calculator.after actions)
      · rcases settles with ⟨text, digits, evaluates⟩ | discards
        · obtain ⟨outcome, shown, missing | ⟨evaluation, found, solved⟩⟩ :=
            Calculator.perform_of_evaluates evaluates
          · exact ⟨outcome, shown, .inl missing⟩
          · exact ⟨outcome, shown, .inr ⟨text, digits, evaluation, .now evaluates, found, solved⟩⟩
        · obtain ⟨outcome, missing, shown⟩ := Calculator.perform_of_discards discards _
          exact ⟨outcome, shown, .inl missing⟩
      · obtain ⟨outcome, shown, origin⟩ := ih
        refine ⟨outcome, (Calculator.perform_of_not_settles settles).displays shown, ?_⟩
        rcases origin with missing | ⟨text, digits, evaluation, last, found, solved⟩
        · exact .inl missing
        · exact .inr ⟨text, digits, evaluation, last.earlier settles, found, solved⟩

/-- After every history, what is displayed is the result of its last evaluation, with nothing since
that settled the outcome otherwise, or it is empty. An evaluation displays a result or an error, never
both and never neither, by the entry and the places alone. -/
theorem outcome_after :
    (∀ actions : List Action,
      (Calculator.after actions).digits ≤ 200 ∧
      ((Calculator.after actions).available = true →
        (Calculator.after actions).error = "" ∧
        ∃ text digits evaluation, LastEvaluated actions text digits ∧ digits ≤ 200 ∧
          Evaluation.ofText text digits = .ok evaluation ∧
          (Calculator.after actions).readings = evaluation.readings ∧
          (Calculator.after actions).steps = evaluation.steps) ∧
      ((Calculator.after actions).available = false →
        (Calculator.after actions).readings = ⟨"", "", "", "", ""⟩ ∧
        (Calculator.after actions).steps = ⟨"", "", 0, ""⟩)) ∧
    (∀ (calculator : Calculator) (action : Action), action.Calculates calculator →
      (calculator.perform action).entry = calculator.entry ∧
      (calculator.perform action).digits = calculator.digits ∧
      ((calculator.perform action).available = true ↔ (calculator.perform action).error = "") ∧
      ∀ (other : Calculator) (otherAction : Action), otherAction.Calculates other →
        other.entry = calculator.entry → other.digits = calculator.digits →
          other.perform otherAction = calculator.perform action) ∧
    (∀ (calculator : Calculator) (action : Action), action.Edits →
      (calculator.perform action).DisplaysLike calculator) ∧
    ∀ calculator : Calculator, calculator.perform (.event (.press .reset)) = {} ∧
      calculator.perform .reset = {} := by
  refine ⟨?_, ?_, ?_, ?_⟩
  · intro actions
    obtain ⟨outcome, shown, origin⟩ := displays_after actions
    refine ⟨Calculator.after_digits actions, ?_, ?_⟩
    · intro available
      rw [shown.available] at available
      refine ⟨shown.error.trans (Outcome.error_of_available available), ?_⟩
      rcases origin with missing | ⟨text, digits, evaluation, last, found, rfl⟩
      · rw [missing] at available
        cases available
      · exact ⟨text, digits, evaluation, last, last.digits_le, found, shown.readings, shown.steps⟩
    · intro missing
      rw [shown.available] at missing
      obtain ⟨readings, steps⟩ := Outcome.empty_of_not_available missing
      exact ⟨shown.readings.trans readings, shown.steps.trans steps⟩
  · intro calculator action calculates
    rw [Calculator.perform_of_calculates calculates]
    refine ⟨calculator.calculate_entry, calculator.calculate_digits,
      calculator.calculate_available_iff, ?_⟩
    intro other otherAction otherCalculates sameEntry sameDigits
    rw [Calculator.perform_of_calculates otherCalculates]
    exact Calculator.calculate_congr sameEntry sameDigits
  · intro calculator action edits
    exact Calculator.perform_of_not_settles (edits.not_settles calculator)
  · intro calculator
    exact ⟨calculator.draw.reset_eq, calculator.reset_eq⟩

example :
    (Calculator.after
      [.setEntry "1/8 ", .event .enter, .event (.precision 1), .setEntry "1/0"]).readings =
      ⟨"1/8", "0", "0.125", "1/8", "12.500%"⟩ := by
  decide +kernel

end FractionCalculator
