import Mathlib
import FractionCalculator.Proofs.Decimal.Writing

/-!
Canonical decimal texts, without a sign, a zero or a point that the number could do without. Writing
gives these texts only, and reading and writing undo each other on them.
-/

namespace FractionCalculator

open DecimalLiteral

/-! Digits of a known count spell a number in one way. -/

theorem ofDigitChars_cons (first : Char) (rest : List Char) :
    Nat.ofDigitChars 10 (first :: rest) 0 =
      10 ^ rest.length * (first.toNat - 48) + Nat.ofDigitChars 10 rest 0 := by
  have zero : '0'.toNat = 48 := rfl
  rw [Nat.ofDigitChars_cons, Nat.ofDigitChars_eq_ofDigitChars_zero, mul_zero, zero_add, zero]

theorem ofDigitChars_lt {digits : List Char}
    (allDigits : ∀ character ∈ digits, character.isDigit = true) :
    Nat.ofDigitChars 10 digits 0 < 10 ^ digits.length := by
  induction digits with
  | nil => simp
  | cons first rest ih =>
      obtain ⟨digit, restDigits⟩ := List.forall_mem_cons.mp allDigits
      have bound : first.toNat ≤ 57 := (Char.isDigit_iff_toNat.mp digit).2
      have later := ih restDigits
      have most : 10 ^ rest.length * (first.toNat - 48) ≤ 10 ^ rest.length * 9 :=
        Nat.mul_le_mul_left _ (by omega)
      rw [ofDigitChars_cons, List.length_cons, pow_succ]
      omega

theorem eq_of_ofDigitChars {digits others : List Char} (length : digits.length = others.length)
    (allDigits : ∀ character ∈ digits, character.isDigit = true)
    (allOthers : ∀ character ∈ others, character.isDigit = true)
    (value : Nat.ofDigitChars 10 digits 0 = Nat.ofDigitChars 10 others 0) : digits = others := by
  induction digits generalizing others with
  | nil => exact (List.length_eq_zero_iff.mp length.symm).symm
  | cons first rest ih =>
      cases others with
      | nil => simp at length
      | cons other later =>
          obtain ⟨digit, restDigits⟩ := List.forall_mem_cons.mp allDigits
          obtain ⟨otherDigit, laterDigits⟩ := List.forall_mem_cons.mp allOthers
          have sameLength : rest.length = later.length := Nat.succ.inj length
          have restBound := ofDigitChars_lt restDigits
          have laterBound := ofDigitChars_lt laterDigits
          rw [ofDigitChars_cons, ofDigitChars_cons, sameLength] at value
          rw [sameLength] at restBound
          have power : 0 < 10 ^ later.length := by positivity
          have leading : first.toNat - 48 = other.toNat - 48 := by
            have quotients := congrArg (· / 10 ^ later.length) value
            simpa [Nat.mul_add_div power, Nat.div_eq_of_lt restBound,
              Nat.div_eq_of_lt laterBound] using quotients
          have remaining : rest = later := by
            apply ih sameLength restDigits laterDigits
            rw [leading] at value
            exact Nat.add_left_cancel value
          have least : 48 ≤ first.toNat := (Char.isDigit_iff_toNat.mp digit).1
          have otherLeast : 48 ≤ other.toNat := (Char.isDigit_iff_toNat.mp otherDigit).1
          have same : first = other := Char.toNat_inj.mp (by omega)
          rw [same, remaining]

theorem leftpad_ofDigitChars {digits : List Char} (nonempty : digits ≠ [])
    (allDigits : ∀ character ∈ digits, character.isDigit = true) :
    (Nat.toDigits 10 (Nat.ofDigitChars 10 digits 0)).leftpad digits.length '0' = digits := by
  apply eq_of_ofDigitChars
  · exact Numeral.length_leftpad_toDigits (List.length_pos_iff.mpr nonempty)
      (ofDigitChars_lt allDigits)
  · exact fun _ => isDigit_of_mem_leftpad
  · exact allDigits
  · exact Numeral.ofDigitChars_leftpad _ _

theorem toDigits_ofDigitChars {digits : List Char} (nonempty : digits ≠ [])
    (allDigits : ∀ character ∈ digits, character.isDigit = true)
    (noLeadingZero : digits.head? = some '0' → digits = ['0']) :
    Nat.toDigits 10 (Nat.ofDigitChars 10 digits 0) = digits := by
  have padded := leftpad_ofDigitChars nonempty allDigits
  rw [List.leftpad] at padded
  -- A zero in front would be the leading zero of the digits, which then are nothing but this zero.
  cases missing : digits.length - (Nat.toDigits 10 (Nat.ofDigitChars 10 digits 0)).length with
  | zero =>
      rw [missing] at padded
      exact padded
  | succ count =>
      have alone : digits = ['0'] := by
        apply noLeadingZero
        rw [← padded, missing, List.replicate_succ]
        rfl
      rw [alone]
      rfl

theorem eq_zero_of_head?_toDigits {number : Nat}
    (leading : (Nat.toDigits 10 number).head? = some '0') : number = 0 := by
  induction number using Nat.strongRecOn with
  | ind number ih =>
      by_cases small : number < 10
      · rw [Nat.toDigits_of_lt_base small] at leading
        have value := Nat.ofDigitChars_ten_toDigits (n := number)
        rw [Nat.toDigits_of_lt_base small, Option.some.inj leading] at value
        exact value.symm
      · have above : 10 ≤ number := by omega
        rw [Nat.toDigits_of_base_le (by decide) above,
          List.head?_append_of_ne_nil _ Nat.toDigits_ne_nil] at leading
        have none := ih (number / 10) (by omega) leading
        omega

theorem fractionalDigits_of_not_mem {characters : List Char} (plain : '.' ∉ characters) :
    fractionalDigits characters = 0 := by
  have all : ∀ character ∈ characters, (character != '.') = true := by
    intro character member
    rw [bne_iff_ne]
    rintro rfl
    exact plain member
  rw [fractionalDigits, List.dropWhile_eq_nil_iff.mpr all]
  rfl

theorem ofScaled?_of_long (mantissa : Int) {scale : Nat} (long : maximumScale < scale) :
    ofScaled? mantissa scale = none := by
  have uncounted : ¬scale ≤ maximumScale := Nat.not_le.mpr long
  simp [ofScaled?, uncounted]

/-- A numeral without a plus sign, an exponent, a zero before another digit of the whole part, a point
that no digit follows, or a minus sign before zero. -/
structure Numeral.Canonical (numeral : Numeral) : Prop where
  noPlus : numeral.sign ≠ .plus
  wholeNonempty : numeral.whole ≠ []
  noLeadingZero : numeral.whole.head? = some '0' → numeral.whole = ['0']
  placesNonempty : numeral.places ≠ some []
  noExponent : numeral.exponent = none
  noNegativeZero : numeral.sign = .minus → numeral.mantissa ≠ 0

def IsCanonical (text : String) : Prop :=
  ∃ numeral : Numeral, numeral.Canonical ∧ numeral.characters = text.toList

namespace Numeral

theorem canonical_ofScaled (scaled : Int) (places : Nat) : (ofScaled scaled places).Canonical where
  noPlus := by
    simp only [ofScaled, writtenSign]
    split <;> simp
  wholeNonempty := Nat.toDigits_ne_nil
  noLeadingZero := by
    intro leading
    have zero := eq_zero_of_head?_toDigits leading
    simp only [ofScaled, zero, Nat.toDigits_zero]
  placesNonempty := by
    simp only [ofScaled]
    split <;> simp [List.leftpad, Nat.toDigits_ne_nil]
  noExponent := rfl
  noNegativeZero := by
    intro negative
    rw [mantissa_ofScaled]
    rintro rfl
    simp [ofScaled, writtenSign] at negative

theorem natAbs_mantissa (numeral : Numeral) : numeral.mantissa.natAbs =
    10 ^ numeral.placeCount * Nat.ofDigitChars 10 numeral.whole 0 +
      Nat.ofDigitChars 10 (numeral.places.getD []) 0 := by
  rw [mantissa, natAbs_signed, Nat.ofDigitChars_append, Nat.ofDigitChars_eq_ofDigitChars_zero,
    placeCount]

theorem leftpad_places {numeral : Numeral} (given : numeral.places.getD [] ≠ []) :
    (Nat.toDigits 10 (numeral.mantissa.natAbs % 10 ^ numeral.placeCount)).leftpad
      numeral.placeCount '0' = numeral.places.getD [] := by
  obtain ⟨_, placeDigits⟩ := List.forall_mem_append.mp numeral.allDigits
  have short : Nat.ofDigitChars 10 (numeral.places.getD []) 0 < 10 ^ numeral.placeCount :=
    ofDigitChars_lt placeDigits
  rw [natAbs_mantissa, Nat.mul_add_mod, Nat.mod_eq_of_lt short]
  exact leftpad_ofDigitChars given placeDigits

namespace Canonical

variable {numeral : Numeral} (canonical : numeral.Canonical)

include canonical

theorem writtenSign_mantissa : writtenSign numeral.mantissa = numeral.sign := by
  have noPlus := canonical.noPlus
  have noNegativeZero := canonical.noNegativeZero
  unfold mantissa at noNegativeZero ⊢
  unfold writtenSign
  cases sign : numeral.sign with
  | plus => exact absurd sign noPlus
  | absent => simp [WrittenSign.negative, signed]
  | minus =>
      have nonzero := noNegativeZero sign
      simp only [sign, WrittenSign.negative, signed, if_true] at nonzero ⊢
      rw [if_pos (by omega)]

theorem power : numeral.power = 0 := by
  rw [Numeral.power, canonical.noExponent]
  rfl

theorem toDigits_whole :
    Nat.toDigits 10 (numeral.mantissa.natAbs / 10 ^ numeral.placeCount) = numeral.whole := by
  obtain ⟨wholeDigits, placeDigits⟩ := List.forall_mem_append.mp numeral.allDigits
  have short : Nat.ofDigitChars 10 (numeral.places.getD []) 0 < 10 ^ numeral.placeCount :=
    ofDigitChars_lt placeDigits
  rw [natAbs_mantissa, Nat.mul_add_div (by positivity), Nat.div_eq_of_lt short, add_zero]
  exact toDigits_ofDigitChars canonical.wholeNonempty wholeDigits canonical.noLeadingZero

theorem places_ofScaled :
    (ofScaled numeral.mantissa numeral.placeCount).places = numeral.places := by
    cases places : numeral.places with
  | none => simp [ofScaled, placeCount, places]
  | some digits =>
      have given : numeral.places.getD [] ≠ [] := by
        rintro empty
        rw [places, Option.getD_some] at empty
        exact canonical.placesNonempty (by rw [places, empty])
      have count : ¬numeral.placeCount = 0 := mt List.length_eq_zero_iff.mp given
      simp only [ofScaled, if_neg count]
      rw [leftpad_places given, places, Option.getD_some]

theorem characters_ofScaled :
    (ofScaled numeral.mantissa numeral.placeCount).characters = numeral.characters := by
  have sign : (ofScaled numeral.mantissa numeral.placeCount).sign = numeral.sign :=
    canonical.writtenSign_mantissa
  have whole : (ofScaled numeral.mantissa numeral.placeCount).whole = numeral.whole :=
    canonical.toDigits_whole
  have exponent : (ofScaled numeral.mantissa numeral.placeCount).exponent = numeral.exponent :=
    canonical.noExponent.symm
  simp only [characters, body, base, sign, whole, canonical.places_ofScaled, exponent]

theorem read?_characters :
    read? numeral.characters = ofScaled? numeral.mantissa numeral.placeCount := by
  have bounded : numeral.power.natAbs ≤ maximumExponent := by
    rw [canonical.power]
    exact Nat.zero_le _
  rw [read?_numeral numeral bounded, canonical.power, sub_zero]

theorem fractionalDigits_characters : fractionalDigits numeral.characters = numeral.placeCount := by
  have plain : '.' ∉ numeral.sign.characters ++ numeral.whole := by
    intro member
    rcases List.mem_append.mp member with early | late
    · cases sign : numeral.sign <;> simp [sign, WrittenSign.characters] at early
    · exact absurd (numeral.allDigits '.' (List.mem_append_left _ late)) (by decide)
  have digits := (List.forall_mem_append.mp numeral.allDigits).2
  simp only [characters, body, base, canonical.noExponent, Option.elim_none, List.append_nil]
  cases places : numeral.places with
  | none =>
      rw [Option.elim_none, List.append_nil, fractionalDigits_of_not_mem plain, placeCount, places]
      rfl
  | some given =>
      rw [places, Option.getD_some] at digits
      rw [Option.elim_some, ← List.append_assoc, fractionalDigits_append plain,
        List.countP_eq_length.mpr digits, placeCount, places, Option.getD_some]

end Canonical

end Numeral

/-- Writing and reading undo each other: a literal is read back from what is written for it, and a
canonical text is written again for what is read in it. Only canonical texts are written. Places that
cannot be counted in 32 bits are not read. -/
theorem decimalText_read?_inverse :
    (∀ scaled places, IsCanonical (decimalText scaled places) ∧
      (places < 2 ^ 32 → read? (decimalText scaled places).toList = some ⟨scaled, places⟩)) ∧
    ∀ text, IsCanonical text →
      if fractionalDigits text.toList < 2 ^ 32 then
        ∃ literal, read? text.toList = some literal ∧
          decimalText literal.mantissa literal.scale = text
      else
        read? text.toList = none := by
  refine ⟨?_, ?_⟩
  · intro scaled places
    refine ⟨⟨_, Numeral.canonical_ofScaled scaled places, ?_⟩, ?_⟩
    · rw [Numeral.toList_decimalText]
    · intro counted
      exact read?_decimalText scaled (Nat.le_sub_one_of_lt counted)
  · rintro text ⟨numeral, canonical, written⟩
    rw [← written, canonical.fractionalDigits_characters, canonical.read?_characters]
    split
    · rename_i counted
      refine ⟨⟨numeral.mantissa, numeral.placeCount⟩,
        ofScaled?_natCast _ (Nat.le_sub_one_of_lt counted), ?_⟩
      apply String.toList_injective
      rw [Numeral.toList_decimalText, canonical.characters_ofScaled, written]
    · rename_i uncounted
      exact ofScaled?_of_long _
        (Nat.sub_one_lt_of_le (by decide) (Nat.le_of_not_lt uncounted))

end FractionCalculator
