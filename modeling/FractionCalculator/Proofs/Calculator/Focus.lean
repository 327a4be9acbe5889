import FractionCalculator.Proofs.Calculator.History

/-!
The enter key beside the equals button. The key evaluates only while the focus is new. An evaluation
gives the focus again, so the key may be struck once more. Any other frame takes the focus, and after
that the key does nothing until another action gives it.
-/

namespace FractionCalculator

inductive Action.Focuses (calculator : Calculator) : Action → Prop
  | press (button : Button) : Focuses calculator (.event (.press button))
  | precision {wanted : Int} (changed : clampDigits wanted ≠ calculator.digits) :
      Focuses calculator (.event (.precision wanted))
  | setDigits (digits : Nat) : Focuses calculator (.setDigits digits)
  | fail (message : String) : Focuses calculator (.fail message)
  | solve (solution : Solution) : Focuses calculator (.solve solution)
  | clearEntry : Focuses calculator .clearEntry
  | clearOutcome : Focuses calculator .clearOutcome
  | reset : Focuses calculator .reset

inductive Action.KeepsFocus : Action → Prop
  | enter : KeepsFocus (.event .enter)
  | setEntry (text : String) : KeepsFocus (.setEntry text)

/-- A history that leaves the focus new. -/
inductive Focused : List Action → Prop
  | fresh : Focused []
  | given {actions : List Action} {action : Action}
      (focuses : action.Focuses (Calculator.after actions)) : Focused (actions ++ [action])
  | kept {actions : List Action} {action : Action} (focused : Focused actions)
      (keeps : action.KeepsFocus) : Focused (actions ++ [action])

namespace Calculator

structure ShowsLike (calculator other : Calculator) : Prop extends calculator.DisplaysLike other where
  entry : calculator.entry = other.entry
  digits : calculator.digits = other.digits

namespace ShowsLike

variable {calculator other last : Calculator}

theorem symm (shown : calculator.ShowsLike other) : other.ShowsLike calculator :=
  ⟨shown.toDisplaysLike.symm, shown.entry.symm, shown.digits.symm⟩

theorem trans (first : calculator.ShowsLike other) (second : other.ShowsLike last) :
    calculator.ShowsLike last :=
  ⟨first.toDisplaysLike.trans second.toDisplaysLike, first.entry.trans second.entry,
    first.digits.trans second.digits⟩

end ShowsLike

theorem press_focused (calculator : Calculator) (button : Button) :
    (calculator.press button).focused = true := by
  cases button with
  | equals => exact calculator.calculate_focused
  | clearEntry | clearOutcome | reset | delete | key => rfl

theorem draw_focused (calculator : Calculator) : calculator.draw.focused = false :=
  rfl

theorem perform_enter_unfocused {calculator : Calculator} (unfocused : ¬calculator.focused = true) :
    calculator.perform (.event .enter) = calculator.draw := by
  rw [perform, Session.respond, if_neg unfocused]

theorem perform_precision_focused (calculator : Calculator) {wanted : Int}
    (same : clampDigits wanted = calculator.digits) :
    (calculator.perform (.event (.precision wanted))).focused = false := by
  rw [perform, Session.respond, if_pos same, draw_focused]

theorem perform_of_focuses {calculator : Calculator} {action : Action}
    (focuses : action.Focuses calculator) : (calculator.perform action).focused = true := by
  cases focuses with
  | press button => exact press_focused _ button
  | precision changed =>
      rw [perform, Session.respond, if_neg changed]
      rfl
  | setDigits | fail | solve | clearEntry | clearOutcome | reset => rfl

theorem perform_of_keepsFocus {action : Action} (keeps : action.KeepsFocus)
    (calculator : Calculator) : (calculator.perform action).focused = calculator.focused := by
  cases keeps with
  | setEntry text => rfl
  | enter =>
      by_cases focused : calculator.focused = true
      · rw [perform_of_calculates (.enter focused), calculate_focused, focused]
      · rw [perform_enter_unfocused focused, draw_focused, eq_false_of_ne_true focused]

theorem focuses_or_keepsFocus {calculator : Calculator} {action : Action}
    (focused : (calculator.perform action).focused = true) :
    action.Focuses calculator ∨ action.KeepsFocus := by
  cases action with
  | event event =>
      cases event with
      | press button => exact .inl (.press button)
      | enter => exact .inr .enter
      | precision wanted =>
          by_cases same : clampDigits wanted = calculator.digits
          · rw [perform_precision_focused calculator same] at focused
            exact Bool.noConfusion focused
          · exact .inl (.precision same)
      | toggleSteps | escape | redraw => exact Bool.noConfusion focused
  | setEntry text => exact .inr (.setEntry text)
  | setDigits digits => exact .inl (.setDigits digits)
  | fail message => exact .inl (.fail message)
  | solve solution => exact .inl (.solve solution)
  | clearEntry => exact .inl .clearEntry
  | clearOutcome => exact .inl .clearOutcome
  | reset => exact .inl .reset

theorem after_focused_iff (actions : List Action) :
    (after actions).focused = true ↔ Focused actions := by
  constructor
  · induction actions using List.reverseRecOn with
    | nil => exact fun _ => .fresh
    | append_singleton actions action ih =>
        rw [after_concat]
        intro focused
        rcases focuses_or_keepsFocus focused with focuses | keeps
        · exact .given focuses
        · rw [perform_of_keepsFocus keeps] at focused
          exact (ih focused).kept keeps
  · intro focused
    induction focused with
    | fresh => rfl
    | given focuses =>
        rw [after_concat]
        exact perform_of_focuses focuses
    | kept focused keeps ih =>
        rw [after_concat, perform_of_keepsFocus keeps]
        exact ih

theorem enter_showsLike_equals {calculator : Calculator} (focused : calculator.focused = true) :
    (calculator.perform (.event .enter)).ShowsLike
      (calculator.perform (.event (.press .equals))) := by
  rw [perform_of_calculates (.enter focused), perform_of_calculates .equals]
  exact ⟨.refl _, rfl, rfl⟩

theorem enter_showsLike_self {calculator : Calculator} (unfocused : ¬calculator.focused = true) :
    (calculator.perform (.event .enter)).ShowsLike calculator := by
  rw [perform_enter_unfocused unfocused]
  exact ⟨calculator.draw_like, rfl, rfl⟩

end Calculator

/-- After every history, the enter key shows what the equals button shows exactly if the focus is new
or the evaluation shows nothing new. While the focus is not new, the key leaves all as it was. -/
theorem enter_iff_focused (actions : List Action) :
    let calculator := Calculator.after actions
    let entered := calculator.perform (.event .enter)
    let evaluated := calculator.perform (.event (.press .equals))
    (entered.ShowsLike evaluated ↔ Focused actions ∨ evaluated.ShowsLike calculator) ∧
    (entered.ShowsLike calculator ↔ ¬Focused actions ∨ evaluated.ShowsLike calculator) := by
  intro calculator entered evaluated
  rw [← Calculator.after_focused_iff]
  by_cases focused : calculator.focused = true
  · have same : entered.ShowsLike evaluated := Calculator.enter_showsLike_equals focused
    refine ⟨iff_of_true same (.inl focused), ?_⟩
    constructor
    · exact fun unchanged => .inr (same.symm.trans unchanged)
    · rintro (unfocused | unchanged)
      · exact absurd focused unfocused
      · exact same.trans unchanged
  · have unchanged : entered.ShowsLike calculator := Calculator.enter_showsLike_self focused
    refine ⟨?_, iff_of_true unchanged (.inl focused)⟩
    constructor
    · exact fun same => .inr (same.symm.trans unchanged)
    · rintro (isFocused | nothingNew)
      · exact absurd isFocused focused
      · exact unchanged.trans nothingNew.symm

example :
    (Calculator.after
      [.clearOutcome, .event .enter, .setEntry "7", .event .enter]).readings.fraction = "7" := by
  decide +kernel

theorem enter_missed_after_redraw :
    ¬∀ actions : List Action,
      ((Calculator.after actions).perform (.event .enter)).ShowsLike
        ((Calculator.after actions).perform (.event (.press .equals))) := by
  intro always
  have shown := (always [.event (.press (.key (.digit 7))), .event .redraw]).available
  revert shown
  decide +kernel

end FractionCalculator
