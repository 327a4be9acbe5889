import FractionCalculator.Proofs.Grammar.Nesting
import FractionCalculator.Proofs.Spelling

/-!
The parser accepts exactly the texts of the grammar, and gives the expression that the only phrase of
such a text stands for.
-/

namespace FractionCalculator

open Awaited

def Grouping.Sound (grouping : Grouping) : Prop :=
  ∀ start lexemes parsed, grouping.read start lexemes = .ok parsed → ∃ inside : SumPhrase,
    lexemes.map Located.lexeme = inside.lexemes ++ .closing :: parsed.rest.map Located.lexeme ∧
      inside.expression = parsed.expression

namespace Expression

variable {grouping : Grouping}

theorem negated_phrase (sound : grouping.Sound) {lexemes : List Located} {parsed : Parsed}
    (found : negated grouping lexemes = .ok parsed) : ∃ phrase : PrimaryPhrase,
      .operator .subtract :: lexemes.map Located.lexeme =
        phrase.lexemes ++ parsed.rest.map Located.lexeme ∧
      phrase.expression = parsed.expression := by
  unfold negated at found
  split at found
  · simp at found
  split at found
  · rename_i located rest _ digits isNumber
    cases found
    exact ⟨.negative digits, by simp [isNumber, PrimaryPhrase.lexemes], rfl⟩
  · rename_i located rest _ isOpening
    split at found
    · simp at found
    · rename_i inside read
      obtain ⟨phrase, whole, same⟩ := sound _ _ _ read
      cases found
      refine ⟨.negated phrase, ?_, ?_⟩
      · simp [isOpening, whole, PrimaryPhrase.lexemes]
      · simp only [PrimaryPhrase.expression, same]
  all_goals simp at found

theorem primary_phrase (sound : grouping.Sound) {lexemes : List Located} {parsed : Parsed}
    (found : primary grouping lexemes = .ok parsed) : ∃ phrase : PrimaryPhrase,
      lexemes.map Located.lexeme = phrase.lexemes ++ parsed.rest.map Located.lexeme ∧
      phrase.expression = parsed.expression := by
  unfold primary at found
  split at found
  · simp at found
  split at found
  · rename_i located rest _ digits isNumber
    cases found
    exact ⟨.number digits, by simp [isNumber, PrimaryPhrase.lexemes], rfl⟩
  · rename_i located rest _ isOpening
    obtain ⟨phrase, whole, same⟩ := sound _ _ _ found
    exact ⟨.grouped phrase, by simp [isOpening, whole, PrimaryPhrase.lexemes], same⟩
  · rename_i located rest _ isSubtract
    obtain ⟨phrase, whole, same⟩ := negated_phrase sound found
    exact ⟨phrase, by rw [List.map_cons, isSubtract, whole], same⟩
  all_goals simp at found

theorem termFrom_phrase (sound : grouping.Sound) {left : Expression} {lexemes : List Located}
    {parsed : Parsed} (found : termFrom grouping left lexemes = .ok parsed) (before : TermPhrase)
    (meaning : before.expression = left) : ∃ phrase : TermPhrase,
      before.lexemes ++ lexemes.map Located.lexeme =
        phrase.lexemes ++ parsed.rest.map Located.lexeme ∧
      phrase.expression = parsed.expression := by
  fun_induction termFrom grouping left lexemes generalizing before with
  | case1 | case2 | case3 | case4 =>
      cases found
      exact ⟨before, rfl, meaning⟩
  | case6 left located rest sign notAdd notSubtract isOperator right read ih =>
      obtain ⟨primary, whole, same⟩ := primary_phrase sound read
      have multiplicative : sign.additive = false := by
        cases sign with
        | add => exact absurd rfl notAdd
        | subtract => exact absurd rfl notSubtract
        | multiply | divide => rfl
      obtain ⟨phrase, further, result⟩ := ih found (.chain before sign multiplicative primary)
        (by simp only [TermPhrase.expression, meaning, same])
      refine ⟨phrase, ?_, result⟩
      rw [← further, List.map_cons, isOperator, whole]
      simp only [TermPhrase.lexemes, List.append_assoc, List.cons_append]
  | case8 left located rest isOpening right read ih =>
      obtain ⟨inside, whole, same⟩ := sound _ _ _ read
      obtain ⟨phrase, further, result⟩ := ih found (.beside before inside)
        (by simp only [TermPhrase.expression, meaning, same])
      refine ⟨phrase, ?_, result⟩
      rw [← further, List.map_cons, isOpening, whole]
      simp only [TermPhrase.lexemes, List.append_assoc, List.cons_append, List.nil_append]
  | case5 | case7 | case9 | case10 | case11 => simp at found

theorem term_phrase (sound : grouping.Sound) {lexemes : List Located} {parsed : Parsed}
    (found : term grouping lexemes = .ok parsed) : ∃ phrase : TermPhrase,
      lexemes.map Located.lexeme = phrase.lexemes ++ parsed.rest.map Located.lexeme ∧
      phrase.expression = parsed.expression := by
  unfold term at found
  split at found
  · simp at found
  · rename_i read
    obtain ⟨primary, whole, same⟩ := primary_phrase sound read
    rw [whole]
    exact termFrom_phrase sound found (.single primary) same

theorem sumFrom_phrase (sound : grouping.Sound) {left : Expression} {lexemes : List Located}
    {parsed : Parsed} (found : sumFrom grouping left lexemes = .ok parsed) (before : SumPhrase)
    (meaning : before.expression = left) : ∃ phrase : SumPhrase,
      before.lexemes ++ lexemes.map Located.lexeme =
        phrase.lexemes ++ parsed.rest.map Located.lexeme ∧
      phrase.expression = parsed.expression := by
  fun_induction sumFrom grouping left lexemes generalizing before with
  | case1 | case6 =>
      cases found
      exact ⟨before, rfl, meaning⟩
  | case3 left located rest isAdd right read ih =>
      obtain ⟨term, whole, same⟩ := term_phrase sound read
      obtain ⟨phrase, further, result⟩ := ih found (.chain before .add rfl term)
        (by simp only [SumPhrase.expression, meaning, same])
      refine ⟨phrase, ?_, result⟩
      rw [← further, List.map_cons, isAdd, whole]
      simp only [SumPhrase.lexemes, List.append_assoc, List.cons_append]
  | case5 left located rest isSubtract right read ih =>
      obtain ⟨term, whole, same⟩ := term_phrase sound read
      obtain ⟨phrase, further, result⟩ := ih found (.chain before .subtract rfl term)
        (by simp only [SumPhrase.expression, meaning, same])
      refine ⟨phrase, ?_, result⟩
      rw [← further, List.map_cons, isSubtract, whole]
      simp only [SumPhrase.lexemes, List.append_assoc, List.cons_append]
  | case2 | case4 => simp at found

theorem sum_phrase (sound : grouping.Sound) {lexemes : List Located} {parsed : Parsed}
    (found : sum grouping lexemes = .ok parsed) : ∃ phrase : SumPhrase,
      lexemes.map Located.lexeme = phrase.lexemes ++ parsed.rest.map Located.lexeme ∧
      phrase.expression = parsed.expression := by
  unfold sum at found
  split at found
  · simp at found
  · rename_i read
    obtain ⟨term, whole, same⟩ := term_phrase sound read
    rw [whole]
    exact sumFrom_phrase sound found (.single term) same

theorem nested_sound (room : Nat) : (nested room).Sound := by
  induction room with
  | zero =>
      intro start lexemes parsed found
      simp [nested] at found
  | succ room ih =>
      intro start lexemes parsed found
      change enclosed (nested room) lexemes = .ok parsed at found
      unfold enclosed at found
      split at found
      · simp at found
      · rename_i inside read
        obtain ⟨phrase, whole, same⟩ := sum_phrase ih read
        split at found
        · simp at found
        · rename_i located rest after
          split at found
          · rename_i isClosing
            cases found
            refine ⟨phrase, ?_, same⟩
            rw [whole, after, List.map_cons, isClosing]
          · simp at found

theorem ofLexemes_phrase {lexemes : List Located} {expression : Expression}
    (found : ofLexemes lexemes = .ok expression) : ∃ phrase : SumPhrase,
      lexemes.map Located.lexeme = phrase.lexemes ∧ phrase.expression = expression := by
  unfold ofLexemes at found
  split at found
  · simp at found
  · rename_i parsed read
    obtain ⟨phrase, whole, same⟩ := sum_phrase (nested_sound maximumNesting) read
    split at found
    · rename_i finished
      cases found
      refine ⟨phrase, ?_, same⟩
      rw [whole, finished, List.map_nil, List.append_nil]
    · simp at found

end Expression

theorem arithmetic_of_run {awaited reached : Awaited} {lexemes : List Lexeme}
    (led : awaited.run lexemes = some reached) : ∀ lexeme ∈ lexemes, lexeme.arithmetic = true := by
  induction lexemes generalizing awaited with
  | nil => simp
  | cons first rest ih =>
      rw [run_cons, Option.bind_eq_some_iff] at led
      obtain ⟨next, once, later⟩ := led
      intro lexeme member
      rcases List.mem_cons.mp member with rfl | after
      · cases lexeme with
        | number | operator | opening | closing => rfl
        | name | unknown => simp [step] at once
      · exact ih later lexeme after

theorem ofLexemes_of_phrase {lexemes : List Located} {phrase : SumPhrase}
    (same : lexemes.map Located.lexeme = phrase.lexemes)
    (nests : NestsWithin maximumNesting phrase.lexemes) :
    Expression.ofLexemes lexemes = .ok phrase.expression := by
  have led := phrase.run 0 (fitsBehind_zero nests)
  rw [← same] at led
  obtain ⟨expression, accepted⟩ := (Expression.ofLexemes_isOk_iff lexemes).mpr led
  obtain ⟨other, otherSame, meaning⟩ := Expression.ofLexemes_phrase accepted
  have unique : phrase = other := SumPhrase.lexemes_injective (same.symm.trans otherSame)
  rw [accepted, unique, meaning]

theorem parse_of_ofLexemes {text : String} {expression : Expression}
    (accepted : Expression.ofLexemes (lexemesOf text) = .ok expression) :
    Expression.parse text = .ok expression := by
  rw [Expression.parse, accepted]
  rfl

theorem ofLexemes_of_parse {text : String} {expression : Expression}
    (accepted : Expression.parse text = .ok expression) :
    Expression.ofLexemes (lexemesOf text) = .ok expression := by
  unfold Expression.parse at accepted
  cases read : Expression.ofLexemes (lexemesOf text) with
  | error refusal =>
      rw [read] at accepted
      simp [Except.mapError] at accepted
  | ok other =>
      simpa [read, Except.mapError] using accepted

theorem ofLexemes_of_parse_error {text : String} {malformation : Malformation}
    (refused : Expression.parse text = .error malformation) : ∃ refusal,
      Expression.ofLexemes (lexemesOf text) = .error refusal ∧
        refusal.malformation text = malformation := by
  unfold Expression.parse at refused
  cases read : Expression.ofLexemes (lexemesOf text) with
  | ok expression =>
      rw [read] at refused
      simp [Except.mapError] at refused
  | error refusal =>
      refine ⟨refusal, rfl, ?_⟩
      simpa [read, Except.mapError] using refused

theorem parse_of_phrase {text : String} {phrase : SumPhrase}
    (same : lexemesIn text.toList = phrase.lexemes)
    (nests : NestsWithin maximumNesting phrase.lexemes) :
    Expression.parse text = .ok phrase.expression :=
  parse_of_ofLexemes (ofLexemes_of_phrase same nests)

theorem phrase_of_parse {text : String} {expression : Expression}
    (accepted : Expression.parse text = .ok expression) : ∃ phrase : SumPhrase,
      Spells text.toList phrase.lexemes ∧ NestsWithin maximumNesting phrase.lexemes ∧
        phrase.expression = expression := by
  have read := ofLexemes_of_parse accepted
  have led := Expression.run_of_ofLexemes read
  obtain ⟨phrase, same, meaning⟩ := Expression.ofLexemes_phrase read
  rw [same] at led
  exact ⟨phrase, spells_iff.mpr ⟨same, arithmetic_of_run led⟩, nestsWithin_of_run led, meaning⟩

/-- The texts of the grammar are accepted as long as no more than 256 parentheses are open at once.
There is only one phrase for each of them, and the parser gives what that phrase stands for. -/
theorem parse_iff_phrase (text : String) :
    (∀ expression, Expression.parse text = .ok expression ↔
      ∃ phrase : SumPhrase, Spells text.toList phrase.lexemes ∧ NestsWithin 256 phrase.lexemes ∧
        phrase.expression = expression) ∧
    (∀ phrase other : SumPhrase, Spells text.toList phrase.lexemes →
      Spells text.toList other.lexemes → phrase = other) ∧
    ((¬∃ phrase : SumPhrase, Spells text.toList phrase.lexemes ∧
        NestsWithin 256 phrase.lexemes) →
      ∃ malformation, Expression.parse text = .error malformation) := by
  refine ⟨?_, ?_, ?_⟩
  · intro expression
    constructor
    · exact phrase_of_parse
    · rintro ⟨phrase, spells, nests, rfl⟩
      exact parse_of_phrase (lexemesIn_of_spells spells) nests
  · intro phrase other spells otherSpells
    apply SumPhrase.lexemes_injective
    rw [← lexemesIn_of_spells spells, lexemesIn_of_spells otherSpells]
  · intro none
    cases read : Expression.parse text with
    | error malformation => exact ⟨malformation, rfl⟩
    | ok expression =>
        obtain ⟨phrase, spells, nests, _⟩ := phrase_of_parse read
        exact absurd ⟨phrase, spells, nests⟩ none

end FractionCalculator
