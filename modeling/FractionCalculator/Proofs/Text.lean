import Mathlib.Data.List.TakeWhile
import FractionCalculator.Text.Blank
import FractionCalculator.Text.Cut

/-!
What cutting and trimming leave of a text.
-/

namespace FractionCalculator

section Run

variable {goesOn : Char → Bool} {run rest : List Char}
  (inside : ∀ character ∈ run, goesOn character = true)
  (ends : ∀ next ∈ rest.head?, goesOn next = false)

include inside ends

theorem takeWhile_append_of_ends : (run ++ rest).takeWhile goesOn = run := by
  rw [List.takeWhile_append_of_pos inside]
  cases rest with
  | nil => simp
  | cons next rest => simp [ends next (by simp)]

theorem dropWhile_append_of_ends : (run ++ rest).dropWhile goesOn = rest := by
  rw [List.dropWhile_append_of_pos inside]
  cases rest with
  | nil => rfl
  | cons next rest => simp [ends next (by simp)]

end Run

theorem cutAt_of_forall_not {isMark : Char → Bool} {characters : List Char}
    (plain : ∀ character ∈ characters, isMark character = false) :
    cutAt isMark characters = (characters, none) := by
  have goesOn : ∀ character ∈ characters, (!isMark character) = true := by
    intro character member
    rw [plain character member]
    rfl
  rw [cutAt, List.takeWhile_eq_self_iff.mpr goesOn, List.dropWhile_eq_nil_iff.mpr goesOn]
  rfl

theorem cutAt_append {isMark : Char → Bool} {before after : List Char} {mark : Char}
    (plain : ∀ character ∈ before, isMark character = false) (marked : isMark mark = true) :
    cutAt isMark (before ++ mark :: after) = (before, some after) := by
  have goesOn : ∀ character ∈ before, (!isMark character) = true := by
    intro character member
    rw [plain character member]
    rfl
  rw [cutAt, List.takeWhile_append_of_pos goesOn, List.dropWhile_append_of_pos goesOn]
  simp [marked]

theorem cutAt_cases (isMark : Char → Bool) (characters : List Char) :
    (∀ character ∈ characters, isMark character = false) ∨
      ∃ before mark after, characters = before ++ mark :: after ∧
        (∀ character ∈ before, isMark character = false) ∧ isMark mark = true := by
  induction characters with
  | nil => exact .inl (by simp)
  | cons first rest ih =>
      by_cases marked : isMark first = true
      · exact .inr ⟨[], first, rest, rfl, by simp, marked⟩
      · have plainFirst : isMark first = false := by simpa using marked
        rcases ih with plain | ⟨before, mark, after, whole, plain, isAMark⟩
        · exact .inl (List.forall_mem_cons.mpr ⟨plainFirst, plain⟩)
        · refine .inr ⟨first :: before, mark, after, ?_, ?_, isAMark⟩
          · rw [whole, List.cons_append]
          · exact List.forall_mem_cons.mpr ⟨plainFirst, plain⟩

theorem eq_of_cutAt_none {isMark : Char → Bool} {characters before : List Char}
    (cut : cutAt isMark characters = (before, none)) :
    characters = before ∧ ∀ character ∈ characters, isMark character = false := by
  rcases cutAt_cases isMark characters with plain | ⟨front, mark, back, rfl, plain, marked⟩
  · rw [cutAt_of_forall_not plain] at cut
    exact ⟨congrArg Prod.fst cut, plain⟩
  · rw [cutAt_append plain marked] at cut
    exact absurd (congrArg Prod.snd cut) (by simp)

theorem eq_of_cutAt_some {isMark : Char → Bool} {characters before after : List Char}
    (cut : cutAt isMark characters = (before, some after)) :
    ∃ mark, characters = before ++ mark :: after ∧ isMark mark = true ∧
      ∀ character ∈ before, isMark character = false := by
  rcases cutAt_cases isMark characters with plain | ⟨front, mark, back, rfl, plain, marked⟩
  · rw [cutAt_of_forall_not plain] at cut
    exact absurd (congrArg Prod.snd cut) (by simp)
  · rw [cutAt_append plain marked] at cut
    obtain ⟨rfl, same⟩ := Prod.mk.inj cut
    obtain rfl := Option.some.inj same
    exact ⟨mark, rfl, marked, plain⟩

theorem withoutBlanks_of_forall_not {characters : List Char}
    (visible : ∀ character ∈ characters, isBlank character = false) :
    withoutBlanks characters = characters := by
  rw [withoutBlanks, List.filter_eq_self]
  intro character member
  rw [visible character member]
  rfl

theorem dropTrailing_of_getLast? {unwanted : Char → Bool} {characters : List Char}
    (wanted : ∀ last ∈ characters.getLast?, unwanted last = false) :
    dropTrailing unwanted characters = characters := by
  rw [dropTrailing, List.dropWhile_eq_self_iff.mpr, List.reverse_reverse]
  intro positive
  have isLast : characters.getLast? = some (characters.reverse[0]) := by
    rw [← List.head?_reverse, List.head?_eq_getElem?, List.getElem?_eq_getElem positive]
  simpa using wanted _ isLast

theorem dropTrailing_append (unwanted : Char → Bool) (characters : List Char) :
    ∃ back, dropTrailing unwanted characters ++ back = characters ∧
      ∀ character ∈ back, unwanted character = true := by
  refine ⟨(characters.reverse.takeWhile unwanted).reverse, ?_, ?_⟩
  · rw [dropTrailing, ← List.reverse_append, List.takeWhile_append_dropWhile, List.reverse_reverse]
  · intro character member
    exact List.mem_takeWhile_imp (List.mem_reverse.mp member)

theorem getLast?_dropTrailing (unwanted : Char → Bool) (characters : List Char) :
    ∀ last ∈ (dropTrailing unwanted characters).getLast?, unwanted last = false := by
  intro last isLast
  rw [dropTrailing, List.getLast?_reverse] at isLast
  have stops := List.head?_dropWhile_not unwanted characters.reverse
  rw [Option.mem_def.mp isLast] at stops
  simpa using stops

theorem trimBlanks_of_forall_not {text : String}
    (visible : ∀ character ∈ text.toList, isBlank character = false) : trimBlanks text = text := by
  have front : text.toList.dropWhile isBlank = text.toList := by
    rw [List.dropWhile_eq_self_iff]
    intro positive
    simpa using visible _ (List.getElem_mem positive)
  rw [trimBlanks, front, dropTrailing_of_getLast?, String.ofList_toList]
  intro last isLast
  exact visible last (List.mem_of_getLast? isLast)

theorem trimBlanks_trimBlanks (text : String) : trimBlanks (trimBlanks text) = trimBlanks text := by
  have front : (trimBlanks text).toList.dropWhile isBlank = (trimBlanks text).toList := by
    rw [trimBlanks, String.toList_ofList]
    obtain ⟨back, whole, _⟩ := dropTrailing_append isBlank (text.toList.dropWhile isBlank)
    have stops := List.head?_dropWhile_not isBlank text.toList
    rw [← whole] at stops
    cases kept : dropTrailing isBlank (text.toList.dropWhile isBlank) with
    | nil => rfl
    | cons first rest =>
        rw [kept] at stops
        exact List.dropWhile_cons_of_neg (by simpa using stops)
  rw [trimBlanks, front, dropTrailing_of_getLast?, String.ofList_toList]
  rw [trimBlanks, String.toList_ofList]
  exact getLast?_dropTrailing isBlank _

end FractionCalculator
