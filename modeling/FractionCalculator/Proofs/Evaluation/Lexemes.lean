import FractionCalculator.Evaluation
import FractionCalculator.Proofs.Grammar.Relocation

/-!
Texts with the same lexemes are evaluated alike, whatever blanks stand around the lexemes.
-/

namespace FractionCalculator

/-- The same error, but for the position and the text that a malformation quotes. -/
inductive CalculationError.Alike : CalculationError → CalculationError → Prop
  | same (error) : Alike error error
  | malformed {malformation other} : malformation.Alike other →
      Alike (.malformed malformation) (.malformed other)

theorem tokensOf_of_same_lexemes {text other : String}
    (same : lexemesIn text.toList = lexemesIn other.toList) : tokensOf text = tokensOf other := by
  rw [tokensOf_eq, tokensOf_eq, same]

theorem Evaluation.ofText_eq_ok_iff {text : String} {places : Nat} {evaluation : Evaluation} :
    ofText text places = .ok evaluation ↔ ∃ expression value,
      Expression.parse (trimBlanks text) = .ok expression ∧ expression.evaluate = .ok value ∧
        ⟨value, .ofFraction value places, .ofExpression (trimBlanks text) expression⟩ =
          evaluation := by
  cases read : Expression.parse (trimBlanks text) with
  | error malformation => simp [ofText, read]
  | ok expression =>
      cases evaluated : expression.evaluate with
      | error error => simp [ofText, read, evaluated]
      | ok value => simp [ofText, read, evaluated]

theorem Evaluation.ofText_of_same_lexemes {text other : String}
    (same : lexemesIn text.toList = lexemesIn other.toList) (places : Nat) :
    (∃ evaluation, ofText text places = .ok evaluation ∧ ofText other places = .ok evaluation) ∨
    (∃ error otherError, ofText text places = .error error ∧
      ofText other places = .error otherError ∧ error.Alike otherError) := by
  have trimmed : lexemesIn (trimBlanks text).toList = lexemesIn (trimBlanks other).toList := by
    rw [lexemesIn_trimBlanks, lexemesIn_trimBlanks, same]
  have tokens := tokensOf_of_same_lexemes trimmed
  unfold ofText
  rcases parse_of_same_lexemes trimmed with ⟨expression, read, otherRead⟩ |
    ⟨malformation, otherMalformation, refused, otherRefused, alike⟩
  · simp only [read, otherRead]
    cases expression.evaluate with
    | error error => exact .inr ⟨error, error, rfl, rfl, .same error⟩
    | ok value =>
        refine .inl ⟨_, rfl, ?_⟩
        simp only [Steps.ofExpression, tokens]
  · simp only [refused, otherRefused]
    exact .inr ⟨_, _, rfl, rfl, .malformed alike⟩

end FractionCalculator
