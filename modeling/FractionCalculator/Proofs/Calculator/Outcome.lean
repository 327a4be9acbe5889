import FractionCalculator.Proofs.Calculator.Entry
import FractionCalculator.Proofs.Evaluation.Lexemes

/-!
What the equals button shows. An entry that the buttons wrote is evaluated like the symbols in it,
without the spaces between them.
-/

namespace FractionCalculator

open Lexeme

theorem IsOperator.mem_marks {character : Char} (operator : IsOperator character) :
    character ∈ marks := by
  obtain ⟨sign, rfl⟩ := operator
  exact symbol_mem_marks sign

theorem getLast?_withoutSpaces {entry : List Char} {last : Char} (isLast : last ∈ entry.getLast?)
    (visible : last ≠ ' ') : (withoutSpaces entry).getLast? = some last := by
  obtain ⟨front, rfl⟩ := List.getLast?_eq_some_iff.mp isLast
  have plain : ' ' ∉ [last] := by
    rw [List.mem_singleton]
    exact visible.symm
  rw [withoutSpaces_append, withoutSpaces_of_not_mem plain, List.getLast?_append]
  rfl

theorem apart_of_spacedByOperators {before after : List Char}
    (spaced : SpacedByOperators (before ++ ' ' :: after)) :
    ∀ last ∈ (withoutSpaces before).getLast?, ∀ next ∈ after.head?, joins last next = false := by
  intro last isLast next isNext
  rcases spaced before after rfl with ⟨operator, isOperatorLast, operators⟩ |
    ⟨operator, isOperatorNext, operators⟩
  · have visible : operator ≠ ' ' := by
      rintro rfl
      exact not_isOperator_space operators
    rw [getLast?_withoutSpaces isOperatorLast visible] at isLast
    obtain rfl := Option.some.inj isLast
    exact joins_mark_left operators.mem_marks next
  · obtain rfl := Option.some.inj (isNext.symm.trans isOperatorNext)
    exact joins_mark_right operators.mem_marks last

theorem lexemesIn_append_withoutSpaces {before after : List Char}
    (spaced : SpacedByOperators (before ++ after)) :
    lexemesIn (withoutSpaces before ++ after) =
      lexemesIn (withoutSpaces before ++ withoutSpaces after) := by
  induction after generalizing before with
  | nil => rfl
  | cons character rest ih =>
      -- The text that was passed keeps its spaces: operators are looked for around them as it stands.
      have regrouped : SpacedByOperators ((before ++ [character]) ++ rest) := by
        rwa [List.append_assoc]
      have later := ih regrouped
      rw [withoutSpaces_append] at later
      by_cases space : character = ' '
      · subst space
        have apart := apart_of_spacedByOperators spaced
        rw [withoutSpaces_space, withoutSpaces_nil, List.append_nil] at later
        rw [withoutSpaces_space, ← later, lexemesIn_append apart, lexemesIn_append,
          lexemesIn_blank (by decide)]
        intro last _ next isNext
        obtain rfl := Option.some.inj isNext
        exact joins_blank_right (by decide) last
      · rw [withoutSpaces_visible space, List.append_assoc, List.append_assoc] at later
        rw [withoutSpaces_visible space]
        exact later

theorem EntryOf.lexemesIn_eq {symbols entry : List Char} (written : EntryOf symbols entry) :
    lexemesIn entry = lexemesIn symbols := by
  have whole : SpacedByOperators ([] ++ entry) := written.spaced
  rw [← written.written]
  exact lexemesIn_append_withoutSpaces whole

theorem EntryOf.entry_eq_nil {entry : List Char} (written : EntryOf [] entry) : entry = [] := by
  cases entry with
  | nil => rfl
  | cons first rest =>
      have visible : first ≠ ' ' := by
        rintro rfl
        exact written.begins rfl
      have gone := written.written
      rw [withoutSpaces_visible visible] at gone
      exact absurd gone (by simp)

theorem lexemesIn_ne_nil {characters : List Char} (nonempty : characters ≠ [])
    (visible : ∀ character ∈ characters, isBlank character = false) : lexemesIn characters ≠ [] := by
  cases characters with
  | nil => exact absurd rfl nonempty
  | cons first rest =>
      rw [lexemesIn_first (visible first List.mem_cons_self)]
      simp

namespace Calculator

/-- What is displayed for an evaluation. Of a malformation, the position and the quoted text may be
those of another spelling. -/
def Shows (calculator : Calculator) : Except CalculationError Evaluation → Prop
  | .ok evaluation => calculator.Displays (.solved evaluation.readings evaluation.steps)
  | .error error => ∃ shown, error.Alike shown ∧ calculator.Displays (.failed shown.message)

theorem calculate_shows {calculator : Calculator} {symbols : List Char}
    (written : EntryOf symbols calculator.entry.toList) (nonempty : symbols ≠ [])
    (visible : ∀ character ∈ symbols, isBlank character = false) :
    calculator.calculate.Shows
      (Evaluation.ofText (String.ofList symbols) calculator.digits) := by
  have same : lexemesIn (String.ofList symbols).toList =
      lexemesIn (trimBlanks calculator.entry).toList := by
    rw [lexemesIn_trimBlanks, String.toList_ofList, written.lexemesIn_eq]
  have filled : ¬(trimBlanks calculator.entry).isEmpty = true := by
    intro empty
    rw [String.isEmpty_iff.mp empty, String.toList_ofList] at same
    exact lexemesIn_ne_nil nonempty visible (same.trans lexemesIn_nil)
  rcases Evaluation.ofText_of_same_lexemes same calculator.digits with
    ⟨evaluation, expected, found⟩ | ⟨error, shown, expected, found, alike⟩
  · rw [expected]
    rw [Shows, calculate_of_ok filled found]
    exact calculator.solve_displays evaluation
  · rw [expected]
    rw [Shows, calculate_of_error filled found]
    exact ⟨shown, alike, calculator.fail_displays shown.message⟩

end Calculator

theorem Session.handle_equals (session : Session) :
    (session.handle (.press .equals)).calculator = session.calculator.draw.calculate := by
  rw [handle, respond, Calculator.press]

/-- Whatever the keys, the deletions and the other events before it, the equals button shows what the
symbols in the entry are evaluated to, as if no space stood between them. -/
theorem equals_after (events : List Event) :
    EntryOf (symbolsAfter events) (Session.after events).calculator.entry.toList ∧
    (symbolsAfter events = [] →
      ((Session.after events).handle (.press .equals)).calculator.Displays
        (.failed "Entrée vide")) ∧
    (symbolsAfter events ≠ [] →
      ((Session.after events).handle (.press .equals)).calculator.Shows
        (Evaluation.ofText (String.ofList (symbolsAfter events))
          (Session.after events).calculator.digits)) := by
  have written := entryOf_after events
  rw [Session.handle_equals]
  refine ⟨written, ?_, ?_⟩
  · intro empty
    rw [empty] at written
    have blank : (trimBlanks (Session.after events).calculator.draw.entry).isEmpty = true := by
      have bare : (Session.after events).calculator.draw.entry = "" :=
        String.toList_injective written.entry_eq_nil
      rw [bare]
      rfl
    rw [Calculator.calculate_of_isEmpty blank]
    exact Calculator.fail_displays _ "Entrée vide"
  · intro nonempty
    have drawn : EntryOf (symbolsAfter events)
        (Session.after events).calculator.draw.entry.toList := written
    exact Calculator.calculate_shows drawn nonempty (symbolsAfter_visible events)

end FractionCalculator
