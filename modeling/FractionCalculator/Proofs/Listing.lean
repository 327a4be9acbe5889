import FractionCalculator.Proofs.Spelling

/-!
Lexemes written one after the other. Their texts side by side are the text they come from without its
blanks, and their texts with a space between each two are read as the same lexemes again.
-/

namespace FractionCalculator

open Lexeme

theorem isBlank_of_continues {first character : Char}
    (further : continues first character = true) : isBlank character = false := by
  rw [Bool.eq_false_iff]
  intro blank
  obtain ⟨number, letter⟩ := blank_standsApart blank
  unfold continues at further
  split at further
  · exact Bool.noConfusion (number.symm.trans further)
  · simp [letter] at further

theorem toList_text_run {first : Char} {run : List Char}
    (goesOn : ∀ character ∈ run, continues first character = true) :
    (leading first run).text.toList = first :: run := by
  rw [toList_text_leading_eq, List.takeWhile_eq_self_iff.mpr goesOn]

theorem flatMap_text_lexemesIn (characters : List Char) :
    (lexemesIn characters).flatMap (fun lexeme => lexeme.text.toList) =
      withoutBlanks characters := by
  induction characters using Cursor.lexing_induction with
  | nil => simp [withoutBlanks]
  | blank character rest blank ih =>
      rw [lexemesIn_blank blank, ih, withoutBlanks, withoutBlanks, List.filter_cons_of_neg]
      simp [blank]
  | lexeme first run rest visible goesOn ends ih =>
      have kept : withoutBlanks (first :: run) = first :: run := by
        apply withoutBlanks_of_forall_not
        refine List.forall_mem_cons.mpr ⟨visible, ?_⟩
        intro character member
        exact isBlank_of_continues (goesOn character member)
      rw [lexemesIn_run visible goesOn ends, List.flatMap_cons, ih, toList_text_run goesOn]
      rw [← List.cons_append, withoutBlanks, withoutBlanks, List.filter_append]
      congr 1
      exact kept.symm

theorem lexemesIn_alone {first : Char} {run : List Char} (visible : isBlank first = false)
    (goesOn : ∀ character ∈ run, continues first character = true) :
    lexemesIn (first :: run) = [leading first run] := by
  have noRest : ∀ next ∈ ([] : List Char).head?, continues first next = false := by simp
  have alone := lexemesIn_run visible goesOn noRest
  rwa [List.append_nil, lexemesIn_nil] at alone

def Lexeme.Readable (lexeme : Lexeme) : Prop := lexemesIn lexeme.text.toList = [lexeme]

theorem readable_leading {first : Char} {run : List Char} (visible : isBlank first = false)
    (goesOn : ∀ character ∈ run, continues first character = true) :
    (leading first run).Readable := by
  rw [Lexeme.Readable, toList_text_run goesOn, lexemesIn_alone visible goesOn]

theorem readable_of_mem {characters : List Char} {lexeme : Lexeme}
    (member : lexeme ∈ lexemesIn characters) : lexeme.Readable := by
  induction characters using Cursor.lexing_induction with
  | nil => simp at member
  | blank character rest blank ih =>
      rw [lexemesIn_blank blank] at member
      exact ih member
  | lexeme first run rest visible goesOn ends ih =>
      rw [lexemesIn_run visible goesOn ends] at member
      rcases List.mem_cons.mp member with rfl | later
      · exact readable_leading visible goesOn
      · exact ih later

theorem lexemesIn_intercalate {lexemes : List Lexeme}
    (readable : ∀ lexeme ∈ lexemes, lexeme.Readable) :
    lexemesIn (" ".intercalate (lexemes.map Lexeme.text)).toList = lexemes := by
  induction lexemes with
  | nil => simp
  | cons lexeme rest ih =>
      obtain ⟨first, later⟩ := List.forall_mem_cons.mp readable
      by_cases last : rest = []
      · subst last
        rw [List.map_singleton, String.intercalate_singleton]
        exact first
      · have remaining : rest.map Lexeme.text ≠ [] := by simpa using last
        have space : " ".toList = [' '] := rfl
        rw [List.map_cons, String.intercalate_cons_of_ne_nil remaining, String.append_assoc,
          String.toList_append, String.toList_append, space, List.singleton_append,
          lexemesIn_append, lexemesIn_blank (by decide), ih later, first]
        · rfl
        · intro last _ next isNext
          obtain rfl := Option.some.inj isNext
          exact joins_blank_right (by decide) last

/-! Tokens are lexemes that are known. -/

theorem text_of_token? {lexeme : Lexeme} {token : Token} (known : lexeme.token? = some token) :
    token.text = lexeme.text := by
  cases lexeme with
  | unknown => simp [Lexeme.token?] at known
  | number | operator | opening | closing | name =>
      rw [← Option.some.inj known]
      rfl

theorem map_text_filterMap_token? {lexemes : List Lexeme}
    (known : ∀ lexeme ∈ lexemes, lexeme.token?.isSome = true) :
    (lexemes.filterMap Lexeme.token?).map Token.text = lexemes.map Lexeme.text := by
  induction lexemes with
  | nil => rfl
  | cons lexeme rest ih =>
      obtain ⟨first, later⟩ := List.forall_mem_cons.mp known
      obtain ⟨token, found⟩ := Option.isSome_iff_exists.mp first
      rw [List.filterMap_cons_some found, List.map_cons, List.map_cons, ih later,
        text_of_token? found]

end FractionCalculator
