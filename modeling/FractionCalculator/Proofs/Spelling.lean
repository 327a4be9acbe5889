import FractionCalculator.Proofs.Lexing.Recognition

/-!
The texts of arithmetic: numbers, operators, parentheses, and blanks anywhere between them. These are
the texts without a name or an unknown character among their lexemes.
-/

namespace FractionCalculator

open Lexeme

/-- A number begins with a digit and takes all digits and points that follow. -/
inductive Spells : List Char → List Lexeme → Prop
  | nil : Spells [] []
  | blank {character rest lexemes} : isBlank character = true → Spells rest lexemes →
      Spells (character :: rest) lexemes
  | operator {rest lexemes} (sign : Operator) : Spells rest lexemes →
      Spells (sign.symbol :: rest) (.operator sign :: lexemes)
  | opening {rest lexemes} : Spells rest lexemes → Spells ('(' :: rest) (.opening :: lexemes)
  | closing {rest lexemes} : Spells rest lexemes → Spells (')' :: rest) (.closing :: lexemes)
  | number {first more rest lexemes} : first.isDigit = true →
      (∀ character ∈ more, character.isDigit = true ∨ character = '.') →
      (∀ next ∈ rest.head?, ¬(next.isDigit = true ∨ next = '.')) → Spells rest lexemes →
      Spells (first :: (more ++ rest)) (.number (String.ofList (first :: more)) :: lexemes)

def Lexeme.arithmetic : Lexeme → Bool
  | .number _ | .operator _ | .opening | .closing => true
  | .name _ | .unknown _ => false

theorem lexemesIn_mark {mark : Char} (alone : mark ∈ marks) (rest : List Char) :
    lexemesIn (mark :: rest) = leading mark [] :: lexemesIn rest := by
  have noRun : ∀ character ∈ ([] : List Char), continues mark character = true := by simp
  exact lexemesIn_run (mark_standsAlone mark alone).1 noRun
    (fun next _ => continues_mark alone next)

theorem lexemesIn_append_mark {mark : Char} (alone : mark ∈ marks) (before after : List Char) :
    lexemesIn (before ++ mark :: after) =
      lexemesIn before ++ leading mark [] :: lexemesIn after := by
  rw [lexemesIn_append, lexemesIn_mark alone]
  intro last _ next isNext
  obtain rfl : mark = next := by simpa using isNext
  exact joins_mark_right alone last

theorem lexemesIn_number {first : Char} {more rest : List Char} (digit : first.isDigit = true)
    (goesOn : ∀ character ∈ more, continuesNumber character = true)
    (ends : ∀ next ∈ rest.head?, continuesNumber next = false) :
    lexemesIn (first :: (more ++ rest)) =
      .number (String.ofList (first :: more)) :: lexemesIn rest := by
  rw [← leading_number digit goesOn]
  rw [← continues_digit digit] at goesOn ends
  exact lexemesIn_run (isBlank_eq_false_of_isDigit digit) goesOn ends

theorem endsNumber_of_mark {mark : Char} (alone : mark ∈ marks) (rest : List Char) :
    ∀ next ∈ (mark :: rest).head?, continuesNumber next = false := by
  intro next isNext
  obtain rfl := Option.some.inj isNext
  exact (mark_standsAlone _ alone).2.2.2

theorem lexemesIn_of_spells {characters : List Char} {lexemes : List Lexeme}
    (spells : Spells characters lexemes) : lexemesIn characters = lexemes := by
  induction spells with
  | nil => exact lexemesIn_nil
  | blank blank _ ih => rw [lexemesIn_blank blank, ih]
  | operator sign _ ih => rw [lexemesIn_mark (symbol_mem_marks sign), leading_symbol, ih]
  | opening _ ih =>
      rw [lexemesIn_mark (by decide), ih]
      rfl
  | closing _ ih =>
      rw [lexemesIn_mark (by decide), ih]
      rfl
  | number digit goesOn ends _ ih =>
      have later := fun character member =>
        (continuesNumber_iff character).mpr (goesOn character member)
      rw [lexemesIn_number digit later, ih]
      intro next isNext
      rw [Bool.eq_false_iff, ne_eq, continuesNumber_iff]
      exact ends next isNext

theorem arithmetic_of_spells {characters : List Char} {lexemes : List Lexeme}
    (spells : Spells characters lexemes) : ∀ lexeme ∈ lexemes, lexeme.arithmetic = true := by
  induction spells with
  | nil => simp
  | blank _ _ ih => exact ih
  | operator _ _ ih | opening _ ih | closing _ ih | number _ _ _ _ ih =>
      intro lexeme member
      rcases List.mem_cons.mp member with rfl | later
      · rfl
      · exact ih lexeme later

theorem spells_leading {first : Char} {run rest : List Char} {lexemes : List Lexeme}
    (goesOn : ∀ character ∈ run, continues first character = true)
    (ends : ∀ next ∈ rest.head?, continues first next = false)
    (arithmetic : (leading first run).arithmetic = true) (spells : Spells rest lexemes) :
    Spells (first :: (run ++ rest)) (leading first run :: lexemes) := by
  have recognised := recognised_leading goesOn
  generalize leading first run = lexeme at arithmetic recognised ⊢
  cases recognised with
  | operator sign => exact .operator sign spells
  | opening => exact .opening spells
  | closing => exact .closing spells
  | number digit later =>
      rw [continues_digit digit] at ends
      refine .number digit later (fun next isNext => ?_) spells
      rw [← continuesNumber_iff, ends next isNext]
      exact Bool.false_ne_true
  | name | unknown => exact Bool.noConfusion arithmetic

theorem spells_lexemesIn {characters : List Char}
    (arithmetic : ∀ lexeme ∈ lexemesIn characters, lexeme.arithmetic = true) :
    Spells characters (lexemesIn characters) := by
  induction characters using Cursor.lexing_induction with
  | nil =>
      rw [lexemesIn_nil]
      exact .nil
  | blank character rest blank ih =>
      rw [lexemesIn_blank blank] at arithmetic ⊢
      exact .blank blank (ih arithmetic)
  | lexeme first run rest visible goesOn ends ih =>
      rw [lexemesIn_run visible goesOn ends] at arithmetic ⊢
      exact spells_leading goesOn ends (arithmetic _ (by simp))
        (ih fun lexeme member => arithmetic lexeme (by simp [member]))

theorem spells_iff {characters : List Char} {lexemes : List Lexeme} :
    Spells characters lexemes ↔
      lexemesIn characters = lexemes ∧ ∀ lexeme ∈ lexemes, lexeme.arithmetic = true := by
  constructor
  · intro spells
    exact ⟨lexemesIn_of_spells spells, arithmetic_of_spells spells⟩
  · rintro ⟨rfl, arithmetic⟩
    exact spells_lexemesIn arithmetic

theorem token?_isSome_of_arithmetic {lexeme : Lexeme} (arithmetic : lexeme.arithmetic = true) :
    lexeme.token?.isSome = true := by
  cases lexeme with
  | number | operator | opening | closing => rfl
  | name | unknown => simp [Lexeme.arithmetic] at arithmetic

theorem tokensOf_of_known {text : String}
    (known : ∀ lexeme ∈ lexemesIn text.toList, lexeme.token?.isSome = true) :
    tokensOf text = (lexemesIn text.toList).filterMap Lexeme.token? := by
  rw [tokensOf_eq, List.takeWhile_eq_self_iff.mpr (by simpa using known), List.filterMap_map]
  rfl

theorem number_mem_tokensOf_iff {text : String} {lexemes : List Lexeme}
    (spells : Spells text.toList lexemes) (token : Token) :
    token ∈ tokensOf text ∧ token.kind = .number ↔
      ∃ digits, .number digits ∈ lexemes ∧ token = ⟨.number, digits⟩ := by
  obtain ⟨rfl, arithmetic⟩ := spells_iff.mp spells
  have known : ∀ lexeme ∈ lexemesIn text.toList, lexeme.token?.isSome = true :=
    fun lexeme member => token?_isSome_of_arithmetic (arithmetic lexeme member)
  rw [tokensOf_of_known known]
  constructor
  · rintro ⟨member, isNumber⟩
    obtain ⟨lexeme, isIn, found⟩ := List.mem_filterMap.mp member
    cases lexeme with
    | number digits =>
        obtain rfl : (⟨.number, digits⟩ : Token) = token := Option.some.inj found
        exact ⟨digits, isIn, rfl⟩
    | operator | opening | closing | name =>
        obtain rfl := Option.some.inj found
        simp [Token.ofCharacter] at isNumber
    | unknown => simp [Lexeme.token?] at found
  · rintro ⟨digits, isIn, rfl⟩
    exact ⟨List.mem_filterMap.mpr ⟨.number digits, isIn, rfl⟩, rfl⟩

end FractionCalculator
