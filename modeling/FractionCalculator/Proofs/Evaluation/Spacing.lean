import FractionCalculator.Proofs.Evaluation.Failure
import FractionCalculator.Proofs.Evaluation.Lexemes
import FractionCalculator.Proofs.Grammar.Progress

/-!
Blanks separate lexemes and do nothing else. What the parser makes of a text is known from its lexemes,
and the place of a refusal from where they start.
-/

namespace FractionCalculator

theorem start_lt_of_mem_indexed {lexemes : List Lexeme} {located : Located}
    (member : located ∈ indexed lexemes) : located.start < lexemes.length := by
  obtain ⟨⟨lexeme, index⟩, isIn, rfl⟩ := List.mem_map.mp member
  exact List.snd_lt_of_mem_zipIdx isIn

theorem found_lt_of_refused {lexemes : List Lexeme} {refusal : Refusal}
    (refused : Expression.ofLexemes (indexed lexemes) = .error refusal) :
    ∀ place ∈ refusal.found.map Prod.snd, place < lexemes.length := by
  intro place isPlace
  obtain ⟨found, isFound, rfl⟩ := Option.map_eq_some_iff.mp isPlace
  have stops := Expression.ofLexemes_refusedFrom refused
  rw [RefusedFrom, isFound] at stops
  obtain ⟨before, located, after, _, whole, _, _, start⟩ := stops
  rw [← start]
  apply start_lt_of_mem_indexed
  rw [whole]
  exact List.mem_append_right _ List.mem_cons_self

/-- Both positions are missing, or the same lexeme starts at each of them in its text. -/
inductive SamePlace (text other : String) : Option Nat → Option Nat → Prop
  | missing : SamePlace text other none none
  | lexeme {index : Nat} {located otherLocated : Located} :
      (lexemesOf text)[index]? = some located → (lexemesOf other)[index]? = some otherLocated →
      SamePlace text other (some located.start) (some otherLocated.start)

theorem samePlace_startOf {text other : String}
    (same : lexemesIn text.toList = lexemesIn other.toList) {index : Option Nat}
    (bound : ∀ place ∈ index, place < (lexemesIn text.toList).length) :
    SamePlace text other (index.map (startOf (lexemesOf text)))
      (index.map (startOf (lexemesOf other))) := by
  cases index with
  | none => exact .missing
  | some place =>
      have inText := bound place rfl
      have count : (lexemesOf text).length = (lexemesIn text.toList).length := by
        rw [← map_lexeme_lexemesOf, List.length_map]
      have otherCount : (lexemesOf other).length = (lexemesIn text.toList).length := by
        rw [same, ← map_lexeme_lexemesOf, List.length_map]
      have found := List.getElem?_eq_getElem (l := lexemesOf text) (i := place) (by omega)
      have otherFound := List.getElem?_eq_getElem (l := lexemesOf other) (i := place) (by omega)
      simp only [startOf, Option.map_some, found, otherFound, Option.getD_some]
      exact .lexeme found otherFound

def leadingBlanks (text : String) : Nat := (text.toList.takeWhile isBlank).length

theorem lexemesOf_trimBlanks (text : String) :
    lexemesOf text =
      (lexemesOf (trimBlanks text)).map (Located.moved (· + leadingBlanks text)) := by
  obtain ⟨trailing, whole, trailingBlank⟩ :=
    dropTrailing_append isBlank (text.toList.dropWhile isBlank)
  have split : text.toList =
      text.toList.takeWhile isBlank ++ ((trimBlanks text).toList ++ trailing) := by
    rw [trimBlanks, String.toList_ofList, whole, List.takeWhile_append_dropWhile]
  have leadingBlank : ∀ character ∈ text.toList.takeWhile isBlank, isBlank character = true :=
    fun character member => List.mem_takeWhile_imp member
  change (⟨0, text.toList⟩ : Cursor).lexemes = _
  conv_lhs => rw [split]
  rw [Cursor.lexemes_append, Cursor.lexemes_of_blanks leadingBlank, Cursor.lexemes_append,
    Cursor.lexemes_of_blanks trailingBlank, List.nil_append, List.append_nil,
    Cursor.lexemes_shift]
  · rfl
  · intro last _ next isNext
    exact Lexeme.joins_blank_right (trailingBlank next (List.mem_of_mem_head? isNext)) last
  · intro last isLast next _
    exact Lexeme.joins_blank_left (leadingBlank last (List.mem_of_getLast? isLast)) next

theorem parse_eq_trimmed (text : String) :
    Expression.parse text = (Expression.ofLexemes (lexemesOf (trimBlanks text))).mapError
      fun refusal => (refusal.moved (· + leadingBlanks text)).malformation text := by
  rw [Expression.parse, lexemesOf_trimBlanks, Expression.ofLexemes_moved]
  cases Expression.ofLexemes (lexemesOf (trimBlanks text)) <;> rfl

theorem Expression.evaluate_ne_malformed (expression : Expression) (malformation : Malformation) :
    expression.evaluate ≠ .error (.malformed malformation) := by
  intro failed
  rw [evaluate_eq_value] at failed
  rcases value_error_kind failed with division | ⟨_, _, invalid⟩
  · exact CalculationError.noConfusion division
  · exact CalculationError.noConfusion invalid

theorem Evaluation.ofText_of_parse_error {text : String} {malformation : Malformation}
    (refused : Expression.parse (trimBlanks text) = .error malformation) (places : Nat) :
    ofText text places = .error (.malformed malformation) := by
  simp [ofText, refused]

theorem Evaluation.ofText_ne_malformed {text : String} {expression : Expression}
    (accepted : Expression.parse (trimBlanks text) = .ok expression) (places : Nat)
    (malformation : Malformation) : ofText text places ≠ .error (.malformed malformation) := by
  intro failed
  simp only [ofText, accepted] at failed
  split at failed
  · rename_i error evaluated
    rw [Except.error.injEq] at failed
    subst failed
    exact expression.evaluate_ne_malformed malformation evaluated
  · simp at failed

/-- Texts with the same lexemes are parsed to the same expression, or refused for the same lexeme in the
same words. A text is evaluated as it is parsed, but that a refusal counts its position from the first
character that is not blank. -/
theorem spacing_irrelevant :
    (∀ text other, (lexemesOf text).map Located.lexeme = (lexemesOf other).map Located.lexeme →
      (∃ expression, Expression.parse text = .ok expression ∧
        Expression.parse other = .ok expression) ∨
      ∃ malformation otherMalformation, Expression.parse text = .error malformation ∧
        Expression.parse other = .error otherMalformation ∧
        malformation.expected = otherMalformation.expected ∧
        malformation.found = otherMalformation.found ∧
        SamePlace text other malformation.position otherMalformation.position) ∧
    ∀ text places,
      match Expression.parse text with
      | .error malformation => ∃ shown,
          Evaluation.ofText text places = .error (.malformed shown) ∧
          shown.expected = malformation.expected ∧ shown.found = malformation.found ∧
          malformation.position = shown.position.map (· + leadingBlanks text)
      | .ok expression =>
          (∀ shown, Evaluation.ofText text places ≠ .error (.malformed shown)) ∧
          ∀ evaluation, Evaluation.ofText text places = .ok evaluation →
            evaluation.steps.tree = expression.render := by
  refine ⟨?_, ?_⟩
  · intro text other same
    rw [map_lexeme_lexemesOf, map_lexeme_lexemesOf] at same
    rw [parse_eq_indexed text, parse_eq_indexed other, ← same]
    cases read : Expression.ofLexemes (indexed (lexemesIn text.toList)) with
    | ok expression => exact .inl ⟨expression, rfl, rfl⟩
    | error refusal =>
        refine .inr ⟨_, _, rfl, rfl, rfl, by simp, ?_⟩
        rw [Refusal.malformation_moved_position, Refusal.malformation_moved_position]
        exact samePlace_startOf same (found_lt_of_refused read)
  · intro text places
    have trimmed : Expression.parse (trimBlanks text) =
        (Expression.ofLexemes (lexemesOf (trimBlanks text))).mapError
          fun refusal => refusal.malformation (trimBlanks text) := rfl
    rw [parse_eq_trimmed]
    cases read : Expression.ofLexemes (lexemesOf (trimBlanks text)) with
    | error refusal =>
        rw [read] at trimmed
        have found := Refusal.malformation_moved_found (· + leadingBlanks text) refusal text
        have position := Refusal.malformation_moved_position (· + leadingBlanks text) refusal text
        exact ⟨_, Evaluation.ofText_of_parse_error trimmed places, rfl, found.symm, position⟩
    | ok expression =>
        rw [read] at trimmed
        refine ⟨Evaluation.ofText_ne_malformed trimmed places, ?_⟩
        intro evaluation solved
        obtain ⟨other, _, parsed, _, rfl⟩ := Evaluation.ofText_eq_ok_iff.mp solved
        rw [trimmed] at parsed
        obtain rfl : expression = other := Except.ok.inj parsed
        rfl

end FractionCalculator
