import Mathlib
import FractionCalculator.Fraction.Text
import FractionCalculator.Proofs.Decimal.Writing
import FractionCalculator.Proofs.Evaluation.Failure
import FractionCalculator.Proofs.Fraction.Reading
import FractionCalculator.Proofs.Grammar.Acceptance

/-!
The text of a fraction gives the fraction back, whether it is read as a fraction text or as an
expression.
-/

namespace FractionCalculator

open DecimalLiteral

namespace Fraction

theorem ofText_repr (number : Int) : ofText number.repr = .ok (ofInt number) := by
  have same : ofLiteral ⟨number, 0⟩ = ofInt number := by
    apply toRat_injective
    simp [DecimalLiteral.toRat]
  rw [ofText_of_read? (read?_repr number), same]

theorem text_of_isInteger {value : Fraction} (integer : value.isInteger = true) :
    value.text = value.numerator.repr ∧ ofInt value.numerator = value := by
  refine ⟨if_pos integer, toRat_injective ?_⟩
  have one : value.denominator = 1 := by simpa [isInteger] using integer
  rw [toRat_ofInt, toRat, one, Nat.cast_one, div_one]

theorem text_of_not_isInteger {value : Fraction} (fractional : ¬value.isInteger = true) :
    value.text = value.numerator.repr ++ "/" ++ (value.denominator : Int).repr := by
  rw [repr_of_nonneg (Int.natCast_nonneg _), Int.natAbs_natCast]
  exact if_neg fractional

theorem ofText_quotient (above : Int) {below : Int} (nonzero : below ≠ 0) :
    ∃ value, ofText (above.repr ++ "/" ++ below.repr) = .ok value ∧ value.toRat = above / below := by
  have readAbove := read?_repr above
  have readBelow := read?_repr below
  have visible : ∀ character ∈ (above.repr ++ "/" ++ below.repr).toList,
      isBlank character = false := by
    intro character member
    simp only [String.toList_append, List.mem_append] at member
    rcases member with (early | bar) | late
    · exact visible_of_read? readAbove character early
    · rw [List.mem_singleton.mp bar]
      decide
    · exact visible_of_read? readBelow character late
  have written : IsQuotient (withoutBlanks (above.repr ++ "/" ++ below.repr).toList)
      ⟨above, 0⟩ ⟨below, 0⟩ := by
    rw [withoutBlanks_of_forall_not visible]
    exact ⟨above.repr.toList, below.repr.toList, by simp, not_mem_of_read? readAbove,
      not_mem_of_read? readBelow, readAbove, readBelow⟩
  have divisible : (⟨below, 0⟩ : DecimalLiteral).toRat ≠ 0 := by
    rw [ne_eq, DecimalLiteral.toRat_eq_zero_iff]
    exact nonzero
  rw [ofText_of_isQuotient written]
  simpa [DecimalLiteral.toRat] using ofLiteralPair_of_ne_zero ⟨above, 0⟩ divisible

theorem ofText_text (value : Fraction) : ofText value.text = .ok value := by
  by_cases integer : value.isInteger = true
  · obtain ⟨written, same⟩ := text_of_isInteger integer
    rw [written, ofText_repr, same]
  · have nonzero : (value.denominator : Int) ≠ 0 := by
      have positive := value.denominator_pos
      omega
    obtain ⟨found, read, same⟩ := ofText_quotient value.numerator nonzero
    rw [text_of_not_isInteger integer, read]
    congr 1
    apply toRat_injective
    rw [same, toRat, Int.cast_natCast]

theorem text_injective : Function.Injective text := by
  intro value other same
  have read := value.ofText_text
  rw [same, other.ofText_text] at read
  exact (Except.ok.inj read).symm

end Fraction

/-! The text of a fraction as an expression is a number, with or without a sign, or the quotient of
such a number and a number without a sign. -/

def PrimaryPhrase.ofInt (number : Int) : PrimaryPhrase :=
  if number < 0 then .negative number.natAbs.repr else .number number.natAbs.repr

def TermPhrase.ofFraction (value : Fraction) : TermPhrase :=
  if value.isInteger then
    .single (.ofInt value.numerator)
  else
    .chain (.single (.ofInt value.numerator)) .divide rfl (.number value.denominator.repr)

theorem spells_digits {digits rest : List Char} {lexemes : List Lexeme} (nonempty : digits ≠ [])
    (allDigits : ∀ character ∈ digits, character.isDigit = true)
    (ends : ∀ next ∈ rest.head?, ¬(next.isDigit = true ∨ next = '.'))
    (spells : Spells rest lexemes) :
    Spells (digits ++ rest) (.number (String.ofList digits) :: lexemes) := by
  cases digits with
  | nil => exact absurd rfl nonempty
  | cons first more =>
      have goesOn : ∀ character ∈ more, character.isDigit = true ∨ character = '.' := by
        intro character member
        exact .inl (allDigits character (List.mem_cons_of_mem _ member))
      exact .number (allDigits first List.mem_cons_self) goesOn ends spells

theorem spells_repr (number : Nat) {rest : List Char} {lexemes : List Lexeme}
    (ends : ∀ next ∈ rest.head?, ¬(next.isDigit = true ∨ next = '.'))
    (spells : Spells rest lexemes) :
    Spells (number.repr.toList ++ rest) (.number number.repr :: lexemes) := by
  rw [Nat.toList_repr, Nat.repr_eq_ofList_toDigits]
  exact spells_digits Nat.toDigits_ne_nil (fun _ => isDigit_of_mem_toDigits) ends spells

theorem PrimaryPhrase.spells_ofInt (number : Int) {rest : List Char} {lexemes : List Lexeme}
    (ends : ∀ next ∈ rest.head?, ¬(next.isDigit = true ∨ next = '.'))
    (spells : Spells rest lexemes) :
    Spells (number.repr.toList ++ rest) ((PrimaryPhrase.ofInt number).lexemes ++ lexemes) := by
  have magnitude := spells_repr number.natAbs ends spells
  by_cases negative : number < 0
  · rw [repr_of_neg negative, PrimaryPhrase.ofInt, if_pos negative, String.toList_append]
    exact .operator .subtract magnitude
  · rw [repr_of_nonneg (by omega), PrimaryPhrase.ofInt, if_neg negative]
    exact magnitude

theorem PrimaryPhrase.expression_ofInt (number : Int) :
    (PrimaryPhrase.ofInt number).expression = .number number.repr := by
  by_cases negative : number < 0
  · rw [repr_of_neg negative, PrimaryPhrase.ofInt, if_pos negative]
    rfl
  · rw [repr_of_nonneg (by omega), PrimaryPhrase.ofInt, if_neg negative]
    rfl

theorem PrimaryPhrase.noOpening_ofInt (number : Int) :
    .opening ∉ (PrimaryPhrase.ofInt number).lexemes := by
  unfold PrimaryPhrase.ofInt
  split <;> simp [PrimaryPhrase.lexemes]

namespace Fraction

theorem spells_text (value : Fraction) :
    Spells value.text.toList (TermPhrase.ofFraction value).lexemes := by
  by_cases integer : value.isInteger = true
  · have spelled := PrimaryPhrase.spells_ofInt value.numerator (by simp) .nil
    rw [List.append_nil, List.append_nil] at spelled
    rw [(text_of_isInteger integer).1, TermPhrase.ofFraction, if_pos integer]
    exact spelled
  · have below := spells_repr value.denominator (by simp) .nil
    rw [List.append_nil] at below
    have spelled := PrimaryPhrase.spells_ofInt value.numerator (by simp [Operator.symbol])
      (.operator .divide below)
    rw [text, if_neg integer, TermPhrase.ofFraction, if_neg integer, String.toList_append,
      String.toList_append, List.append_assoc]
    exact spelled

theorem noOpening_text (value : Fraction) :
    .opening ∉ (TermPhrase.ofFraction value).lexemes := by
  have above := PrimaryPhrase.noOpening_ofInt value.numerator
  unfold TermPhrase.ofFraction
  split <;> simp [TermPhrase.lexemes, PrimaryPhrase.lexemes, above]

theorem value_number (number : Int) : (Expression.number number.repr).value = .ok (ofInt number) :=
  ofText_repr number

theorem value_phrase (value : Fraction) :
    (TermPhrase.ofFraction value).expression.value = .ok value := by
  by_cases integer : value.isInteger = true
  · rw [TermPhrase.ofFraction, if_pos integer, TermPhrase.expression,
      PrimaryPhrase.expression_ofInt, value_number, (text_of_isInteger integer).2]
  · have below := value_number value.denominator
    rw [repr_of_nonneg (Int.natCast_nonneg _), Int.natAbs_natCast] at below
    have nonzero : (ofInt value.denominator).toRat ≠ 0 := by
      rw [toRat_ofInt, Int.cast_natCast]
      exact value.cast_denominator_pos.ne'
    obtain ⟨quotient, divided, same⟩ := divide_toRat (ofInt value.numerator) nonzero
    have whole : quotient = value := by
      apply toRat_injective
      rw [same, toRat_ofInt, toRat_ofInt, toRat, Int.cast_natCast]
    rw [TermPhrase.ofFraction, if_neg integer]
    simp only [TermPhrase.expression, PrimaryPhrase.expression_ofInt, PrimaryPhrase.expression]
    rw [Expression.value_of_values (value_number value.numerator) below, Operator.apply, divided,
      whole]

theorem parse_text (value : Fraction) :
    Expression.parse value.text = .ok (TermPhrase.ofFraction value).expression := by
  have nests : NestsWithin maximumNesting (TermPhrase.ofFraction value).lexemes := by
    apply NestsWithin.of_count_opening
    rw [List.count_eq_zero.mpr value.noOpening_text]
    exact Nat.zero_le _
  have spelled : lexemesIn value.text.toList = (SumPhrase.single (.ofFraction value)).lexemes :=
    lexemesIn_of_spells value.spells_text
  exact parse_of_phrase spelled nests

/-- Both readers give a fraction back from its text, so no two fractions have the same text. -/
theorem text_roundTrip :
    (∀ value : Fraction, ofText value.text = .ok value ∧
      ∃ expression, Expression.parse value.text = .ok expression ∧
        expression.evaluate = .ok value) ∧
    ∀ value other : Fraction, value.text = other.text ↔ value = other := by
  refine ⟨?_, ?_⟩
  · intro value
    refine ⟨value.ofText_text, _, value.parse_text, ?_⟩
    rw [Expression.evaluate_eq_value, value.value_phrase]
  · intro value other
    constructor
    · intro same
      have read := value.ofText_text
      rw [same, other.ofText_text] at read
      exact (Except.ok.inj read).symm
    · rintro rfl
      rfl

end Fraction

end FractionCalculator
