import FractionCalculator.Proofs.Grammar.Acceptance
import FractionCalculator.Proofs.Grammar.Agreement
import FractionCalculator.Proofs.Grammar.Refusals

/-!
Each level of the walk stops where the level above it can go on, so some of the refusals that a level
has at hand are never made.
-/

namespace FractionCalculator

namespace Descent

def Return.StopsAt {descent : Descent} (returned : Return descent) (characters : List Char) : Prop :=
  ∀ expression, returned.result = .ok expression →
    ∀ character ∈ returned.next.cursor.nextCharacter?, character ∈ characters

theorem Return.Matches.stopsAt {descent : Descent} {returned : Return descent}
    {expected : Except Refusal Parsed} (same : returned.Matches expected) {characters : List Char}
    (ends : ∀ parsed, expected = .ok parsed → ∀ located ∈ parsed.rest.head?,
      ∀ character ∈ located.lexeme.text.toList.head?, character ∈ characters) :
    returned.StopsAt characters := by
  intro expression found character next
  cases expected with
  | error refusal => simp [same.result_of_error] at found
  | ok parsed =>
      have rest := same.lexemes_of_ok
      rcases returned.next.atEnd_or_faces with atEnd | ⟨located, faces⟩
      · simp [atEnd.nextCharacter?] at next
      · rw [faces.lexemes] at rest
        rw [faces.nextCharacter?] at next
        exact ends parsed rfl located (by rw [← rest]; rfl) character next

theorem term_stopsAt (descent : Descent) : (term descent).StopsAt ['+', '-', ')'] := by
  refine (term_matches descent).stopsAt fun parsed read located isNext character first => ?_
  have ends := Expression.term_ends read located.lexeme (by simp_all)
  cases lexeme : located.lexeme with
  | operator sign =>
      rw [lexeme] at first ends
      cases sign with
      | add | subtract =>
          cases first
          decide
      | multiply | divide => cases ends
  | closing =>
      rw [lexeme] at first
      cases first
      decide
  | number | opening | name | unknown =>
      rw [lexeme] at ends
      cases ends

theorem sum_stopsAt (descent : Descent) : (sum descent).StopsAt [')'] := by
  refine (sum_matches descent).stopsAt fun parsed read located isNext character first => ?_
  have ends := Expression.sum_ends read located.lexeme (by simp_all)
  rw [ends] at first
  cases first
  exact List.mem_singleton_self _

def Return.Advances {descent : Descent} (returned : Return descent) : Prop :=
  ∀ expression, returned.result = .ok expression →
    descent.cursor.position < returned.next.cursor.position

theorem Level.read_advances {bound : Nat} (level : Level bound) (descent : Descent)
    (within : descent.left ≤ bound) : (level.read descent within).Advances :=
  fun _ found => (level.read descent within).reaches.position_lt (level.advances found)

theorem primary_advances (descent : Descent) : (primary descent).Advances :=
  Level.read_advances _ _ _

theorem term_advances (descent : Descent) : (term descent).Advances :=
  Level.read_advances _ _ _

theorem sum_advances (descent : Descent) : (sum descent).Advances := by
  rw [sum]
  exact Level.read_advances _ _ _

theorem expectation_text_injective : Function.Injective Expectation.text := by
  intro expected other same
  revert same
  cases expected <;> cases other <;> decide

theorem expectation_ne_signs (expected : Expectation) :
    expected.text ≠ additiveSigns ∧ expected.text ≠ arithmeticSigns := by
  cases expected <;> decide

theorem found_of_expected_closing {text : String} {refusal : Refusal}
    (refused : Expression.ofLexemes (lexemesOf text) = .error refusal)
    (missed : refusal.expected.text = Expectation.closing.text) : refusal.found = none := by
  have closing := expectation_text_injective missed
  cases Expression.ofLexemes_concerns refused with
  | atEnd => rfl
  | onReading _ other | onSight _ other => exact absurd closing other

/-- Wherever a walk begins and however many parentheses are open there, each level does what the level
of the parser does with the lexemes left, goes forward and leaves the counter as it was. Terms and sums
stop where their caller goes on. So no refusal asks for a plus or a minus sign, nor for a closing
parenthesis in the place of something else. -/
theorem levels_stop :
    (∀ descent : Descent,
      ((primary descent).Matches (Expression.primary descent.grouping descent.cursor.lexemes) ∧
        (primary descent).Advances) ∧
      ((term descent).Matches (Expression.term descent.grouping descent.cursor.lexemes) ∧
        (term descent).Advances ∧ (term descent).StopsAt ['+', '-', ')']) ∧
      (sum descent).Matches (Expression.sum descent.grouping descent.cursor.lexemes) ∧
        (sum descent).Advances ∧ (sum descent).StopsAt [')']) ∧
    (∀ text, parse text = Expression.parse text) ∧
    ∀ text malformation, parse text = .error malformation →
      malformation.expected ≠ additiveSigns ∧ malformation.expected ≠ arithmeticSigns ∧
      (malformation.expected = Expectation.closing.text → malformation.found = none) := by
  refine ⟨fun descent => ⟨⟨primary_matches descent, primary_advances descent⟩,
    ⟨term_matches descent, term_advances descent, term_stopsAt descent⟩,
    sum_matches descent, sum_advances descent, sum_stopsAt descent⟩, parse_eq, ?_⟩
  intro text malformation refused
  rw [parse_eq] at refused
  obtain ⟨refusal, failed, rfl⟩ := ofLexemes_of_parse_error refused
  obtain ⟨notAdditive, notArithmetic⟩ := expectation_ne_signs refusal.expected
  refine ⟨notAdditive, notArithmetic, fun missed => ?_⟩
  change refusal.found.map Prod.fst = none
  rw [found_of_expected_closing failed missed]
  rfl

example : (term { cursor := ⟨3, "2(1+3) )".toList⟩, depth := 2, deepest := 2 }).next =
    { cursor := ⟨9, " )".toList⟩, depth := 2, deepest := 3 } := by
  decide +kernel

end Descent

end FractionCalculator
