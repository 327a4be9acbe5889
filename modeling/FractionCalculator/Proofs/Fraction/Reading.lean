import Mathlib
import FractionCalculator.Proofs.Decimal.Numeral

/-!
What a text is read as. Of the texts without blanks, the literals are read as their own number, two
literals around a bar as their quotient, and all others are refused.
-/

namespace FractionCalculator

open DecimalLiteral

theorem Numeral.mem_characters (numeral : Numeral) {character : Char}
    (member : character ∈ numeral.characters) :
    character.isDigit = true ∨ character ∈ ['+', '-', '.', 'e', 'E'] := by
  have inSign (sign : WrittenSign) (isIn : character ∈ sign.characters) :
      character ∈ ['+', '-', '.', 'e', 'E'] := by
    cases sign with
    | absent => simp [WrittenSign.characters] at isIn
    | plus | minus => simp_all [WrittenSign.characters]
  rcases List.mem_append.mp member with signed | inBody
  · exact .inr (inSign numeral.sign signed)
  rcases List.mem_append.mp inBody with inBase | inExponent
  · rcases numeral.base_mem inBase with digit | rfl
    · exact .inl digit
    · exact .inr (by decide)
  · cases written : numeral.exponent with
    | none => simp [written] at inExponent
    | some exponent =>
        simp only [written, Option.elim_some, WrittenExponent.characters, List.mem_cons,
          List.mem_append] at inExponent
        rcases inExponent with rfl | signed | digit
        · exact .inr (by rcases exponent.isMark with mark | mark <;> simp [mark])
        · exact .inr (inSign exponent.sign signed)
        · exact .inl (exponent.allDigits character digit)

theorem DecimalLiteral.not_mem_of_read? {characters : List Char} {literal : DecimalLiteral}
    (found : read? characters = some literal) : '/' ∉ characters := by
  obtain ⟨numeral, rfl, _⟩ := exists_numeral_of_read? found
  intro member
  exact absurd (numeral.mem_characters member) (by decide)

theorem DecimalLiteral.visible_of_read? {characters : List Char} {literal : DecimalLiteral}
    (found : read? characters = some literal) :
    ∀ character ∈ characters, isBlank character = false := by
  obtain ⟨numeral, rfl, _⟩ := exists_numeral_of_read? found
  intro character member
  rcases numeral.mem_characters member with digit | mark
  · exact isBlank_eq_false_of_isDigit digit
  · simp only [List.mem_cons, List.not_mem_nil, or_false] at mark
    rcases mark with rfl | rfl | rfl | rfl | rfl <;> decide

namespace Fraction

theorem ofText_of_read? {text : String} {literal : DecimalLiteral}
    (read : read? text.toList = some literal) : ofText text = .ok (ofLiteral literal) := by
  rw [ofText_of_forall (visible_of_read? read) (not_mem_of_read? read), read]

def IsLiteral (characters : List Char) (literal : DecimalLiteral) : Prop :=
  '/' ∉ characters ∧ read? characters = some literal

def IsQuotient (characters : List Char) (above below : DecimalLiteral) : Prop :=
  ∃ front back, characters = front ++ '/' :: back ∧ '/' ∉ front ∧ '/' ∉ back ∧
    read? front = some above ∧ read? back = some below

theorem not_bar_of_not_mem {characters : List Char} (noBar : '/' ∉ characters) :
    ∀ character ∈ characters, (character == '/') = false := by
  intro character member
  rw [beq_eq_false_iff_ne]
  rintro rfl
  exact noBar member

theorem ofText_of_isLiteral {text : String} {literal : DecimalLiteral}
    (written : IsLiteral (withoutBlanks text.toList) literal) :
    ofText text = .ok (ofLiteral literal) := by
  obtain ⟨noBar, read⟩ := written
  simp only [ofText, cutAt_of_forall_not (not_bar_of_not_mem noBar), read]

theorem ofText_of_isQuotient {text : String} {above below : DecimalLiteral}
    (written : IsQuotient (withoutBlanks text.toList) above below) :
    ofText text = ofLiteralPair above below := by
  obtain ⟨front, back, whole, noBar, _, readFront, readBack⟩ := written
  simp only [ofText, whole, cutAt_append (not_bar_of_not_mem noBar) (beq_self_eq_true '/'),
    readFront, readBack]

theorem ofText_of_neither {text : String}
    (noLiteral : ∀ literal, ¬IsLiteral (withoutBlanks text.toList) literal)
    (noQuotient : ∀ above below, ¬IsQuotient (withoutBlanks text.toList) above below) :
    ofText text = .error (.invalidFormat (trimBlanks text)) := by
  cases cut : cutAt (fun character => character == '/') (withoutBlanks text.toList) with
  | mk front back =>
      cases back with
      | none =>
          obtain ⟨rfl, plain⟩ := eq_of_cutAt_none cut
          have noBar : '/' ∉ withoutBlanks text.toList := fun member =>
            Bool.noConfusion (plain '/' member)
          cases read : read? (withoutBlanks text.toList) with
          | none => simp only [ofText, cut, read]
          | some literal => exact absurd ⟨noBar, read⟩ (noLiteral literal)
      | some back =>
          obtain ⟨mark, whole, isBar, plain⟩ := eq_of_cutAt_some cut
          obtain rfl : mark = '/' := by simpa using isBar
          have noBar : '/' ∉ front := fun member => Bool.noConfusion (plain '/' member)
          cases readFront : read? front with
          | none => simp only [ofText, cut, readFront]
          | some above =>
              cases readBack : read? back with
              | none => simp only [ofText, cut, readFront, readBack]
              | some below =>
                  exact absurd
                    ⟨front, back, whole, noBar, not_mem_of_read? readBack, readFront, readBack⟩
                    (noQuotient above below)

/-- The literals are the numerals whose exponent lies within ten thousand, and a literal has the number
that its numeral denotes. A text, its blanks left out, is a literal, or a quotient of two of which the
lower one is not zero, or it is refused. Numerals whose places cannot be counted in 32 bits are left
out. -/
theorem ofText_language :
    (∀ characters literal, read? characters = some literal →
      ∃ numeral : Numeral, numeral.characters = characters ∧ numeral.power.natAbs ≤ 10000 ∧
        literal = numeral.literal) ∧
    (∀ numeral : Numeral, numeral.power.natAbs ≤ 10000 → numeral.placeCount < 2 ^ 32 - 10000 →
      read? numeral.characters = some numeral.literal) ∧
    (∀ numeral : Numeral, numeral.literal.toRat = numeral.value) ∧
    ∀ text,
      (∀ literal, IsLiteral (withoutBlanks text.toList) literal →
        ∃ value, ofText text = .ok value ∧ value.toRat = literal.toRat) ∧
      (∀ above below, IsQuotient (withoutBlanks text.toList) above below →
        below.toRat = 0 ∧ ofText text = .error .divisionByZero ∨
        below.toRat ≠ 0 ∧ ∃ value, ofText text = .ok value ∧
          value.toRat = above.toRat / below.toRat) ∧
      ((∀ literal, ¬IsLiteral (withoutBlanks text.toList) literal) →
        (∀ above below, ¬IsQuotient (withoutBlanks text.toList) above below) →
        ofText text = .error (.invalidFormat (trimBlanks text))) := by
  refine ⟨?_, ?_, Numeral.toRat_literal, ?_⟩
  · intro characters literal found
    obtain ⟨numeral, written, bounded, same⟩ := exists_numeral_of_read? found
    exact ⟨numeral, written, bounded, same.symm⟩
  · intro numeral bounded short
    apply read?_numeral_of_short numeral bounded
    rw [maximumScale, Nat.pow_eq]
    omega
  · intro text
    refine ⟨?_, ?_, ofText_of_neither⟩
    · intro literal written
      exact ⟨_, ofText_of_isLiteral written, toRat_ofLiteral literal⟩
    · intro above below written
      rw [ofText_of_isQuotient written]
      by_cases zero : below.toRat = 0
      · exact .inl ⟨zero, ofLiteralPair_of_zero above zero⟩
      · exact .inr ⟨zero, ofLiteralPair_of_ne_zero above zero⟩

end Fraction

end FractionCalculator
