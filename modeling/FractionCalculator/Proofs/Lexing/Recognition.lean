import FractionCalculator.Proofs.Lexing

/-!
How a lexeme is recognised. Its first character tells its kind, and the kind tells how the run after
it goes on.
-/

namespace FractionCalculator

open Lexeme

structure StartsNothing (character : Char) : Prop where
  noMark : character ∉ marks
  noDigit : character.isDigit = false
  noLetter : character.isAlpha = false

/-- A lexeme, told by its first character and the run that this goes on with. -/
inductive Recognised : Char → List Char → Lexeme → Prop
  | operator (sign : Operator) : Recognised sign.symbol [] (.operator sign)
  | opening : Recognised '(' [] .opening
  | closing : Recognised ')' [] .closing
  | number {first run} : first.isDigit = true →
      (∀ character ∈ run, character.isDigit = true ∨ character = '.') →
      Recognised first run (.number (String.ofList (first :: run)))
  | name {first run} : first.isAlpha = true → (∀ character ∈ run, character.isAlpha = true) →
      Recognised first run (.name (String.ofList (first :: run)))
  | unknown {first} : StartsNothing first → Recognised first [] (.unknown first)

theorem continuesNumber_iff (character : Char) :
    continuesNumber character = true ↔ character.isDigit = true ∨ character = '.' := by
  simp [continuesNumber]

section FirstCharacter

variable {first : Char}

theorem not_mem_marks_of_isDigit (digit : first.isDigit = true) : first ∉ marks := by
  intro mark
  obtain ⟨_, noDigit, _⟩ := mark_standsAlone first mark
  rw [digit] at noDigit
  exact Bool.noConfusion noDigit

theorem not_mem_marks_of_isAlpha (letter : first.isAlpha = true) : first ∉ marks := by
  intro mark
  obtain ⟨_, _, noLetter, _⟩ := mark_standsAlone first mark
  rw [letter] at noLetter
  exact Bool.noConfusion noLetter

theorem isDigit_eq_false_of_isAlpha (letter : first.isAlpha = true) : first.isDigit = false := by
  rw [Bool.eq_false_iff]
  intro digit
  have letterCode := code_of_isAlpha letter
  have digitCode := code_of_continuesNumber ((continuesNumber_iff first).mpr (.inl digit))
  omega

theorem isBlank_eq_false_of_isDigit (digit : first.isDigit = true) : isBlank first = false := by
  rw [Bool.eq_false_iff]
  intro blank
  have number := (blank_standsApart blank).1
  simp [continuesNumber, digit] at number

theorem isBlank_eq_false_of_isAlpha (letter : first.isAlpha = true) : isBlank first = false := by
  rw [Bool.eq_false_iff]
  intro blank
  rw [(blank_standsApart blank).2] at letter
  exact Bool.noConfusion letter

theorem ofSymbol?_of_not_mem_marks (noMark : first ∉ marks) :
    Operator.ofSymbol? first = none := by
  cases found : Operator.ofSymbol? first with
  | none => rfl
  | some sign =>
      have symbol := (Operator.ofSymbol?_eq_some_iff first sign).mp found
      exact absurd (symbol ▸ symbol_mem_marks sign) noMark

theorem leading_of_not_mem_marks (noMark : first ∉ marks) (rest : List Char) :
    leading first rest =
      if first.isDigit then .number (String.ofList (first :: rest.takeWhile continuesNumber))
      else if first.isAlpha then .name (String.ofList (first :: rest.takeWhile Char.isAlpha))
      else .unknown first := by
  have noOpening : first ≠ '(' := by
    rintro rfl
    exact noMark (by decide)
  have noClosing : first ≠ ')' := by
    rintro rfl
    exact noMark (by decide)
  simp only [leading, ofSymbol?_of_not_mem_marks noMark, if_neg noOpening, if_neg noClosing]

theorem leading_number {run : List Char} (digit : first.isDigit = true)
    (goesOn : ∀ character ∈ run, continuesNumber character = true) :
    leading first run = .number (String.ofList (first :: run)) := by
  rw [leading_of_not_mem_marks (not_mem_marks_of_isDigit digit), if_pos digit,
    List.takeWhile_eq_self_iff.mpr goesOn]

theorem leading_name {run : List Char} (letter : first.isAlpha = true)
    (goesOn : ∀ character ∈ run, character.isAlpha = true) :
    leading first run = .name (String.ofList (first :: run)) := by
  rw [leading_of_not_mem_marks (not_mem_marks_of_isAlpha letter),
    isDigit_eq_false_of_isAlpha letter, if_neg Bool.false_ne_true, if_pos letter,
    List.takeWhile_eq_self_iff.mpr goesOn]

theorem leading_unknown (unknown : StartsNothing first) (rest : List Char) :
    leading first rest = .unknown first := by
  rw [leading_of_not_mem_marks unknown.noMark, unknown.noDigit, unknown.noLetter,
    if_neg Bool.false_ne_true, if_neg Bool.false_ne_true]

end FirstCharacter

theorem leading_symbol (sign : Operator) (rest : List Char) :
    leading sign.symbol rest = .operator sign := by
  cases sign <;> rfl

theorem recognised_mark {mark : Char} (member : mark ∈ marks) :
    Recognised mark [] (leading mark []) := by
  simp only [marks, List.mem_cons, List.not_mem_nil, or_false] at member
  rcases member with rfl | rfl | rfl | rfl | rfl | rfl
  · exact .operator .add
  · exact .operator .subtract
  · exact .operator .multiply
  · exact .operator .divide
  · exact .opening
  · exact .closing

theorem recognised_leading {first : Char} {run : List Char}
    (goesOn : ∀ character ∈ run, continues first character = true) :
    Recognised first run (leading first run) := by
  by_cases mark : first ∈ marks
  · obtain rfl := eq_nil_of_continues_mark mark goesOn
    exact recognised_mark mark
  by_cases digit : first.isDigit = true
  · rw [continues_digit digit] at goesOn
    rw [leading_number digit goesOn]
    exact .number digit fun character member =>
      (continuesNumber_iff character).mp (goesOn character member)
  by_cases letter : first.isAlpha = true
  · rw [continues_letter digit letter] at goesOn
    rw [leading_name letter goesOn]
    exact .name letter goesOn
  · have noRun : run = [] := by
      rw [List.eq_nil_iff_forall_not_mem]
      intro character member
      simpa [continues_other digit letter] using goesOn character member
    subst noRun
    have unknown : StartsNothing first :=
      ⟨mark, Bool.eq_false_iff.mpr digit, Bool.eq_false_iff.mpr letter⟩
    rw [leading_unknown unknown]
    exact .unknown unknown

end FractionCalculator
