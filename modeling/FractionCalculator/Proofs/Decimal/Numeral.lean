import Mathlib
import FractionCalculator.Proofs.Decimal.Reading
import FractionCalculator.Proofs.Fraction.Rational

/-!
The written form of decimal literals: a sign, digits with at most one point among them, and an
exponent, of which only the digits must be there. Reading accepts this form and nothing else, and
keeps the number that is written.
-/

namespace FractionCalculator

open DecimalLiteral

inductive WrittenSign
  | absent
  | plus
  | minus

namespace WrittenSign

def characters : WrittenSign → List Char
  | absent => []
  | plus => ['+']
  | minus => ['-']

def negative : WrittenSign → Bool
  | minus => true
  | absent | plus => false

end WrittenSign

structure WrittenExponent where
  mark : Char
  isMark : mark = 'e' ∨ mark = 'E'
  sign : WrittenSign
  digits : List Char
  nonempty : digits ≠ []
  allDigits : ∀ character ∈ digits, character.isDigit = true

namespace WrittenExponent

def characters (exponent : WrittenExponent) : List Char :=
  exponent.mark :: (exponent.sign.characters ++ exponent.digits)

def value (exponent : WrittenExponent) : Int :=
  signed exponent.sign.negative (Nat.ofDigitChars 10 exponent.digits 0)

end WrittenExponent

/-- A literal as it is written, with the digits after the point where there is a point. Neither the
whole part nor the places need a digit, but one of them does. -/
structure Numeral where
  sign : WrittenSign
  whole : List Char
  places : Option (List Char)
  exponent : Option WrittenExponent
  nonempty : whole ++ places.getD [] ≠ []
  allDigits : ∀ character ∈ whole ++ places.getD [], character.isDigit = true

namespace Numeral

def base (numeral : Numeral) : List Char :=
  numeral.whole ++ numeral.places.elim [] fun places => '.' :: places

def body (numeral : Numeral) : List Char :=
  numeral.base ++ numeral.exponent.elim [] WrittenExponent.characters

def characters (numeral : Numeral) : List Char := numeral.sign.characters ++ numeral.body

def placeCount (numeral : Numeral) : Nat := (numeral.places.getD []).length

def power (numeral : Numeral) : Int := numeral.exponent.elim 0 WrittenExponent.value

def mantissa (numeral : Numeral) : Int :=
  signed numeral.sign.negative (Nat.ofDigitChars 10 (numeral.whole ++ numeral.places.getD []) 0)

def literal (numeral : Numeral) : DecimalLiteral :=
  { mantissa := numeral.mantissa * 10 ^ (numeral.power - numeral.placeCount).toNat
    scale := (numeral.placeCount - numeral.power).toNat }

def value (numeral : Numeral) : ℚ := numeral.mantissa * 10 ^ (numeral.power - numeral.placeCount)

theorem toRat_literal (numeral : Numeral) : numeral.literal.toRat = numeral.value := by
  rw [toRat, literal, value]
  rcases Int.le_total numeral.power numeral.placeCount with low | high
  · obtain ⟨scale, same⟩ := Int.eq_ofNat_of_zero_le (Int.sub_nonneg.mpr low)
    have shift : numeral.power - numeral.placeCount = -scale := by omega
    simp [same, shift, div_eq_mul_inv]
  · obtain ⟨shift, same⟩ := Int.eq_ofNat_of_zero_le (Int.sub_nonneg.mpr high)
    have scale : numeral.placeCount - numeral.power = -shift := by omega
    simp [same, scale]

theorem base_mem (numeral : Numeral) {character : Char} (member : character ∈ numeral.base) :
    character.isDigit = true ∨ character = '.' := by
  have digit := numeral.allDigits character
  unfold base at member
  cases places : numeral.places with
  | none =>
      rw [places] at member digit
      exact .inl (digit (by simpa using member))
  | some digits =>
      rw [places] at member digit
      rcases List.mem_append.mp member with early | late
      · exact .inl (digit (List.mem_append_left _ early))
      · rcases List.mem_cons.mp late with point | later
        · exact .inr point
        · exact .inl (digit (List.mem_append_right _ later))

theorem base_ne_nil (numeral : Numeral) : numeral.base ≠ [] := by
  intro empty
  obtain ⟨noWhole, noPlaces⟩ := List.append_eq_nil_iff.mp empty
  apply numeral.nonempty
  rw [noWhole]
  cases places : numeral.places with
  | none => rfl
  | some digits => simp [places] at noPlaces

end Numeral

namespace DecimalLiteral

theorem takeSign_characters (sign : WrittenSign) {rest : List Char}
    (unsigned : ∀ first ∈ rest.head?, first ≠ '-' ∧ first ≠ '+') :
    takeSign (sign.characters ++ rest) = (sign.negative, rest) := by
  cases sign with
  | plus | minus => rfl
  | absent =>
      cases rest with
      | nil => rfl
      | cons first rest =>
          obtain ⟨noMinus, noPlus⟩ := unsigned first rfl
          simp [takeSign, WrittenSign.characters, WrittenSign.negative, noMinus, noPlus]

theorem exists_sign (characters : List Char) : ∃ sign : WrittenSign, ∃ rest,
    characters = sign.characters ++ rest ∧ takeSign characters = (sign.negative, rest) := by
  unfold takeSign
  split
  · rename_i rest
    exact ⟨.minus, rest, rfl, rfl⟩
  · rename_i rest
    exact ⟨.plus, rest, rfl, rfl⟩
  · exact ⟨.absent, characters, rfl, rfl⟩

theorem readDigits?_eq_some_iff {characters : List Char} {magnitude : Nat} :
    readDigits? characters = some magnitude ↔
      characters ≠ [] ∧ (∀ character ∈ characters, character.isDigit = true) ∧
        Nat.ofDigitChars 10 characters 0 = magnitude := by
  simp [readDigits?, and_assoc]

theorem digit_unsigned {characters : List Char}
    (digits : ∀ character ∈ characters, character.isDigit = true ∨ character = '.') :
    ∀ first ∈ characters.head?, first ≠ '-' ∧ first ≠ '+' := by
  intro first isFirst
  have digit := digits first (List.mem_of_mem_head? isFirst)
  constructor <;> rintro rfl <;> exact absurd digit (by decide)

theorem natAbs_signed (negative : Bool) (magnitude : Nat) :
    (signed negative magnitude).natAbs = magnitude := by
  cases negative <;> simp [signed]

theorem readExponent?_characters (exponent : WrittenExponent)
    (bounded : exponent.value.natAbs ≤ maximumExponent) :
    readExponent? (some (exponent.sign.characters ++ exponent.digits)) = some exponent.value := by
  rw [WrittenExponent.value, natAbs_signed] at bounded
  have unsigned := digit_unsigned fun character member => .inl (exponent.allDigits character member)
  simp only [readExponent?, takeSign_characters exponent.sign unsigned,
    readDigits?_of_forall_isDigit exponent.nonempty exponent.allDigits, bounded, if_true]
  rfl

theorem exists_exponent {mark : Char} (isMark : mark = 'e' ∨ mark = 'E') {characters : List Char}
    {power : Int} (found : readExponent? (some characters) = some power) :
    ∃ exponent : WrittenExponent, exponent.characters = mark :: characters ∧
      exponent.value = power ∧ power.natAbs ≤ maximumExponent := by
  obtain ⟨sign, digits, rfl, signed⟩ := exists_sign characters
  simp only [readExponent?, signed] at found
  split at found
  · simp at found
  · rename_i magnitude read
    obtain ⟨nonempty, allDigits, same⟩ := readDigits?_eq_some_iff.mp read
    split at found
    · rename_i bounded
      refine ⟨⟨mark, isMark, sign, digits, nonempty, allDigits⟩, rfl, ?_, ?_⟩
      · rw [WrittenExponent.value, same]
        exact Option.some.inj found
      · rw [← Option.some.inj found, natAbs_signed]
        exact bounded
    · simp at found

theorem ofScaled?_eq_some_iff {mantissa scale : Int} {literal : DecimalLiteral} :
    ofScaled? mantissa scale = some literal ↔
      scale.toNat ≤ maximumScale ∧ ⟨mantissa * 10 ^ (-scale).toNat, scale.toNat⟩ = literal := by
  unfold ofScaled?
  by_cases negative : 0 ≤ scale
  · have noShift : (-scale).toNat = 0 := by omega
    simp [negative, noShift]
  · have noScale : scale.toNat = 0 := by omega
    simp [negative, noScale]

theorem cutAt_body (numeral : Numeral) :
    cutAt (fun character => character == 'e' || character == 'E') numeral.body =
      (numeral.base, numeral.exponent.map fun exponent =>
        exponent.sign.characters ++ exponent.digits) := by
  have plain : ∀ character ∈ numeral.base, (character == 'e' || character == 'E') = false := by
    intro character member
    rcases numeral.base_mem member with digit | rfl
    · rw [Bool.or_eq_false_iff, beq_eq_false_iff_ne, beq_eq_false_iff_ne]
      constructor <;> rintro rfl <;> exact absurd digit (by decide)
    · decide
  unfold Numeral.body
  cases numeral.exponent with
  | none => simpa using cutAt_of_forall_not plain
  | some exponent =>
      refine cutAt_append plain ?_
      rcases exponent.isMark with mark | mark <;> rw [mark] <;> decide

theorem cutAt_base (numeral : Numeral) :
    cutAt (fun character => character == '.') numeral.base = (numeral.whole, numeral.places) := by
  have plain : ∀ character ∈ numeral.whole, (character == '.') = false := by
    intro character member
    rw [beq_eq_false_iff_ne]
    rintro rfl
    exact absurd (numeral.allDigits '.' (List.mem_append_left _ member)) (by decide)
  unfold Numeral.base
  cases numeral.places with
  | none => simpa using cutAt_of_forall_not plain
  | some places => exact cutAt_append plain (by decide)

theorem readExponent?_numeral (numeral : Numeral)
    (bounded : numeral.power.natAbs ≤ maximumExponent) :
    readExponent? (numeral.exponent.map fun exponent =>
      exponent.sign.characters ++ exponent.digits) = some numeral.power := by
  unfold Numeral.power at bounded ⊢
  cases written : numeral.exponent with
  | none => rfl
  | some exponent =>
      simp only [written] at bounded
      exact readExponent?_characters exponent bounded

theorem read?_numeral (numeral : Numeral) (bounded : numeral.power.natAbs ≤ maximumExponent) :
    read? numeral.characters =
      ofScaled? numeral.mantissa (numeral.placeCount - numeral.power) := by
  have unsigned : ∀ first ∈ numeral.body.head?, first ≠ '-' ∧ first ≠ '+' := by
    intro first isFirst
    apply digit_unsigned (fun character => numeral.base_mem)
    rwa [Numeral.body, List.head?_append_of_ne_nil _ numeral.base_ne_nil] at isFirst
  simp only [read?, Numeral.characters, takeSign_characters numeral.sign unsigned,
    cutAt_body numeral, cutAt_base, readExponent?_numeral numeral bounded,
    readDigits?_of_forall_isDigit numeral.nonempty numeral.allDigits]
  rfl

theorem exists_exponent_of_cutAt {body base : List Char} {text : Option (List Char)} {power : Int}
    (cut : cutAt (fun character => character == 'e' || character == 'E') body = (base, text))
    (found : readExponent? text = some power) :
    ∃ exponent : Option WrittenExponent, body = base ++ exponent.elim [] WrittenExponent.characters ∧
      exponent.elim 0 WrittenExponent.value = power ∧ power.natAbs ≤ maximumExponent := by
  cases text with
  | none =>
      obtain rfl : 0 = power := Option.some.inj found
      exact ⟨none, by simp [(eq_of_cutAt_none cut).1], rfl, Nat.zero_le _⟩
  | some text =>
      obtain ⟨mark, rfl, isMark, _⟩ := eq_of_cutAt_some cut
      obtain ⟨exponent, written, same, bounded⟩ :=
        exists_exponent (by simpa using isMark) found
      exact ⟨some exponent, by rw [← written]; rfl, same, bounded⟩

theorem eq_base_of_cutAt {base whole : List Char} {places : Option (List Char)}
    (cut : cutAt (fun character => character == '.') base = (whole, places)) :
    base = whole ++ places.elim [] fun places => '.' :: places := by
  cases places with
  | none => simp [(eq_of_cutAt_none cut).1]
  | some places =>
      obtain ⟨mark, rfl, isPoint, _⟩ := eq_of_cutAt_some cut
      obtain rfl : mark = '.' := by simpa using isPoint
      rfl

theorem exists_numeral_of_read? {characters : List Char} {literal : DecimalLiteral}
    (found : read? characters = some literal) :
    ∃ numeral : Numeral, numeral.characters = characters ∧
      numeral.power.natAbs ≤ maximumExponent ∧ numeral.literal = literal := by
  obtain ⟨sign, body, rfl, signed⟩ := exists_sign characters
  cases marked : cutAt (fun character => character == 'e' || character == 'E') body with
  | mk base exponentText =>
      cases pointed : cutAt (fun character => character == '.') base with
      | mk whole places =>
          simp only [read?, signed, marked, pointed] at found
          split at found
          · rename_i magnitude power readMagnitude readPower
            obtain ⟨nonempty, allDigits, rfl⟩ := readDigits?_eq_some_iff.mp readMagnitude
            obtain ⟨exponent, rfl, rfl, bounded⟩ := exists_exponent_of_cutAt marked readPower
            obtain rfl := eq_base_of_cutAt pointed
            obtain ⟨_, rfl⟩ := ofScaled?_eq_some_iff.mp found
            refine ⟨⟨sign, whole, places, exponent, nonempty, allDigits⟩, rfl, bounded, ?_⟩
            rw [Numeral.literal, neg_sub]
            rfl
          · simp at found

theorem read?_numeral_of_short (numeral : Numeral)
    (bounded : numeral.power.natAbs ≤ maximumExponent)
    (short : (numeral.placeCount - numeral.power).toNat ≤ maximumScale) :
    read? numeral.characters = some numeral.literal := by
  rw [read?_numeral numeral bounded, ofScaled?_eq_some_iff, neg_sub]
  exact ⟨short, rfl⟩

end DecimalLiteral

end FractionCalculator
