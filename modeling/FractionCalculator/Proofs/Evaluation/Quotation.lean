import FractionCalculator.Proofs.Evaluation.Spacing
import FractionCalculator.Proofs.Grammar.Acceptance
import FractionCalculator.Proofs.Grammar.Refusals

/-!
What a malformation quotes. It holds the whole text, and where it names a position, what it says to have
found there is what the text goes on with.
-/

namespace FractionCalculator

/-- The malformation holds this text. Either it has neither a position nor anything found, or the text
goes on with what was found from the position on, and does not go on with a blank. -/
def Malformation.Quotes (malformation : Malformation) (text : String) : Prop :=
  malformation.expression = text ∧
    match malformation.found, malformation.position with
    | none, none => True
    | some found, some position =>
        position < text.length ∧
        (∃ character, text.toList[position]? = some character ∧ isBlank character = false) ∧
        found ≠ "" ∧ (text.toList.drop position).take found.length = found.toList
    | _, _ => False

theorem written_at_start {text : String} {located : Located} (member : located ∈ lexemesOf text) :
    ∃ front first more rest, text.toList = front ++ first :: (more ++ rest) ∧
      isBlank first = false ∧ located.start = front.length ∧
      located.lexeme.text.toList = first :: more := by
  obtain ⟨before, after, whole⟩ := List.append_of_mem member
  obtain ⟨front, first, rest, characters, visible, rfl, _, _⟩ := lexemesOf_split whole
  obtain ⟨more, written, others, rfl⟩ := Lexeme.toList_text_leading first rest
  exact ⟨front, first, more, others, characters, visible, rfl, written⟩

theorem Refusal.quotes_of_prefix {text found : String} {located : Located} {expected : Expectation}
    (member : located ∈ lexemesOf text) (begins : found.toList <+: located.lexeme.text.toList)
    (nonempty : found ≠ "") :
    ((⟨expected, some (found, located.start)⟩ : Refusal).malformation text).Quotes text := by
  obtain ⟨front, first, more, rest, characters, visible, place, written⟩ := written_at_start member
  have length : text.length = front.length + (first :: (more ++ rest)).length := by
    rw [← String.length_toList, characters, List.length_append]
  have onward : found.toList <+: first :: (more ++ rest) := by
    rw [written] at begins
    exact begins.trans (List.prefix_append (first :: more) rest)
  refine ⟨rfl, ?_⟩
  simp only [malformation, Option.map_some, place, characters, List.drop_left]
  refine ⟨by simp [length], ⟨first, by simp, visible⟩, nonempty, ?_⟩
  rw [← String.length_toList]
  exact (List.prefix_iff_eq_take.mp onward).symm

theorem Refusal.Concerns.quotes {text : String} {refusal : Refusal}
    (concerns : refusal.Concerns (lexemesOf text)) : (refusal.malformation text).Quotes text := by
  cases concerns with
  | atEnd expected => exact ⟨rfl, trivial⟩
  | @onReading located expected member _ =>
      obtain ⟨_, first, more, _, _, _, _, written⟩ := written_at_start member
      refine quotes_of_prefix member List.prefix_rfl ?_
      rintro empty
      simp [empty] at written
  | @onSight located expected member _ =>
      obtain ⟨_, first, more, _, _, _, _, written⟩ := written_at_start member
      refine quotes_of_prefix member ?_ ?_
      · rw [Lexeme.lead, String.toList_ofList]
        exact List.take_prefix 1 _
      · rintro empty
        simp [Lexeme.lead, written] at empty

theorem quotes_of_parse_error {text : String} {malformation : Malformation}
    (refused : Expression.parse text = .error malformation) : malformation.Quotes text := by
  obtain ⟨refusal, read, rfl⟩ := ofLexemes_of_parse_error refused
  exact (Expression.ofLexemes_concerns read).quotes

theorem Evaluation.parse_error_of_malformed {text : String} {places : Nat}
    {malformation : Malformation} (failed : ofText text places = .error (.malformed malformation)) :
    Expression.parse (trimBlanks text) = .error malformation := by
  cases read : Expression.parse (trimBlanks text) with
  | error other =>
      rw [ofText_of_parse_error read, Except.error.injEq, CalculationError.malformed.injEq] at failed
      rw [failed]
  | ok expression => exact absurd failed (ofText_ne_malformed read places malformation)

/-- A refused text is quoted as it stands, and an evaluated one without the blanks at its ends. -/
theorem malformation_quotes (text : String) :
    (∀ malformation, Expression.parse text = .error malformation → malformation.Quotes text) ∧
    ∀ places malformation, Evaluation.ofText text places = .error (.malformed malformation) →
      malformation.Quotes (trimBlanks text) :=
  ⟨fun _ refused => quotes_of_parse_error refused,
    fun _ _ failed => quotes_of_parse_error (Evaluation.parse_error_of_malformed failed)⟩

theorem malformation_quotes_name :
    Expression.parse "  2(-3 + sin(4))" = .error
      ⟨"un nombre ou une parenthèse (fonctions non implémentées)", some "sin", some 9,
        "  2(-3 + sin(4))"⟩ ∧
    Evaluation.ofText "  2(-3 + sin(4))" 10 = .error (.malformed
      ⟨"un nombre ou une parenthèse (fonctions non implémentées)", some "sin", some 7,
        "2(-3 + sin(4))"⟩) ∧
    9 < "  2(-3 + sin(4))".length ∧
    ("  2(-3 + sin(4))".toList.drop 9).take 3 = "sin".toList ∧
    ("2(-3 + sin(4))".toList.drop 7).take 3 = "sin".toList := by
  have refused : Expression.parse "  2(-3 + sin(4))" = .error
      ⟨"un nombre ou une parenthèse (fonctions non implémentées)", some "sin", some 9,
        "  2(-3 + sin(4))"⟩ := by
    decide +kernel
  have failed : Evaluation.ofText "  2(-3 + sin(4))" 10 = .error (.malformed
      ⟨"un nombre ou une parenthèse (fonctions non implémentées)", some "sin", some 7,
        "2(-3 + sin(4))"⟩) := by
    apply Evaluation.ofText_of_parse_error
    decide +kernel
  obtain ⟨parsing, evaluating⟩ := malformation_quotes "  2(-3 + sin(4))"
  obtain ⟨_, inside, _, _, quoted⟩ := parsing _ refused
  obtain ⟨_, _, _, _, quotedTrimmed⟩ := evaluating 10 _ failed
  exact ⟨refused, failed, inside, quoted, quotedTrimmed⟩

end FractionCalculator
