import Mathlib
import FractionCalculator.Decimal.Places
import FractionCalculator.Proofs.Decimal.Numeral

/-!
Decimal texts are numerals: what is written for a scaled number is read as that number at that scale.
-/

namespace FractionCalculator

open DecimalLiteral

def writtenSign (number : Int) : WrittenSign := if number < 0 then .minus else .absent

theorem isDigit_of_mem_toDigits {number : Nat} {character : Char}
    (member : character ∈ Nat.toDigits 10 number) : character.isDigit = true :=
  Nat.isDigit_of_mem_toDigits (by decide) (by decide) member

theorem isDigit_of_mem_leftpad {places number : Nat} {character : Char}
    (member : character ∈ (Nat.toDigits 10 number).leftpad places '0') :
    character.isDigit = true := by
  rw [List.leftpad] at member
  rcases List.mem_append.mp member with zero | digit
  · rw [List.eq_of_mem_replicate zero]
    rfl
  · exact isDigit_of_mem_toDigits digit

namespace Numeral

def ofScaled (scaled : Int) (places : Nat) : Numeral where
  sign := writtenSign scaled
  whole := Nat.toDigits 10 (scaled.natAbs / 10 ^ places)
  places :=
    if places = 0 then none
    else some ((Nat.toDigits 10 (scaled.natAbs % 10 ^ places)).leftpad places '0')
  exponent := none
  nonempty := by simp [Nat.toDigits_ne_nil]
  allDigits := by
    intro character member
    rcases List.mem_append.mp member with early | late
    · exact isDigit_of_mem_toDigits early
    · split at late
      · exact absurd late List.not_mem_nil
      · exact isDigit_of_mem_leftpad late

theorem toList_decimalText (scaled : Int) (places : Nat) :
    (decimalText scaled places).toList = (ofScaled scaled places).characters := by
  have sign : (if scaled < 0 then "-" else "").toList = (writtenSign scaled).characters := by
    rw [writtenSign]
    split <;> rfl
  by_cases none : places = 0 <;>
    simp [decimalText, ofScaled, characters, body, base, none, sign, Nat.toList_repr]

theorem length_leftpad_toDigits {places number : Nat} (positive : 0 < places)
    (short : number < 10 ^ places) :
    ((Nat.toDigits 10 number).leftpad places '0').length = places := by
  rw [List.length_leftpad, max_eq_left (Nat.toDigits_length 10 number places positive short)]

theorem ofDigitChars_leftpad (places number : Nat) :
    Nat.ofDigitChars 10 ((Nat.toDigits 10 number).leftpad places '0') 0 = number := by
  rw [List.leftpad, Nat.ofDigitChars_append, Nat.ofDigitChars_replicate_zero, mul_zero,
    Nat.ofDigitChars_ten_toDigits]

theorem placeCount_ofScaled (scaled : Int) (places : Nat) :
    (ofScaled scaled places).placeCount = places := by
  by_cases none : places = 0
  · simp [placeCount, ofScaled, none]
  · have short : scaled.natAbs % 10 ^ places < 10 ^ places := Nat.mod_lt _ (by positivity)
    simp only [placeCount, ofScaled, none, if_false, Option.getD_some]
    exact length_leftpad_toDigits (Nat.pos_of_ne_zero none) short

theorem mantissa_ofScaled (scaled : Int) (places : Nat) :
    (ofScaled scaled places).mantissa = scaled := by
  have magnitude : Nat.ofDigitChars 10
      ((ofScaled scaled places).whole ++ (ofScaled scaled places).places.getD []) 0 =
        scaled.natAbs := by
    have count := placeCount_ofScaled scaled places
    rw [placeCount] at count
    rw [Nat.ofDigitChars_append, Nat.ofDigitChars_eq_ofDigitChars_zero, count]
    by_cases none : places = 0
    · simp [ofScaled, none]
    · simp only [ofScaled, none, if_false, Option.getD_some, ofDigitChars_leftpad,
        Nat.ofDigitChars_ten_toDigits]
      exact Nat.div_add_mod _ _
  rw [mantissa, magnitude, ofScaled, writtenSign]
  by_cases negative : scaled < 0
  · simp only [negative, if_true, WrittenSign.negative, signed]
    omega
  · simp only [negative, if_false, WrittenSign.negative, signed, Bool.false_eq_true]
    omega

theorem literal_ofScaled (scaled : Int) (places : Nat) :
    (ofScaled scaled places).literal = ⟨scaled, places⟩ := by
  have power : (ofScaled scaled places).power = 0 := rfl
  simp [literal, power, placeCount_ofScaled, mantissa_ofScaled]

end Numeral

theorem read?_decimalText (scaled : Int) {places : Nat} (counted : places ≤ maximumScale) :
    read? (decimalText scaled places).toList = some ⟨scaled, places⟩ := by
  have power : (Numeral.ofScaled scaled places).power = 0 := rfl
  rw [Numeral.toList_decimalText, ← Numeral.literal_ofScaled]
  apply read?_numeral_of_short
  · simp [power]
  · simpa [power, Numeral.placeCount_ofScaled] using counted

theorem decimalText_neg {scaled : Int} (positive : 0 < scaled) (places : Nat) :
    decimalText (-scaled) places = "-" ++ decimalText scaled places := by
  have notNegative : ¬scaled < 0 := by omega
  by_cases none : places = 0 <;>
    simp [decimalText, positive, notNegative, none, String.append_assoc]

theorem repr_of_neg {number : Int} (negative : number < 0) :
    number.repr = "-" ++ number.natAbs.repr := by
  have notNonneg : ¬0 ≤ number := by omega
  have magnitude : (-number).toNat = number.natAbs := by omega
  rw [Int.repr_eq_if, if_neg notNonneg, magnitude]

theorem repr_of_nonneg {number : Int} (nonneg : 0 ≤ number) : number.repr = number.natAbs.repr := by
  have magnitude : number.toNat = number.natAbs := by omega
  rw [Int.repr_eq_if, if_pos nonneg, magnitude]

theorem decimalText_zero (number : Int) : decimalText number 0 = number.repr := by
  by_cases negative : number < 0
  · simp [decimalText, negative, repr_of_neg]
  · have nonneg : 0 ≤ number := by omega
    simp [decimalText, negative, repr_of_nonneg nonneg]

theorem read?_repr (number : Int) : read? number.repr.toList = some ⟨number, 0⟩ := by
  rw [← decimalText_zero]
  exact read?_decimalText number (Nat.zero_le _)

end FractionCalculator
