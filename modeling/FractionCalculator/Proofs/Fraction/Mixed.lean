import Mathlib
import FractionCalculator.Proofs.Fraction.Rounding
import FractionCalculator.Proofs.Fraction.RoundTrip

/-!
Mixed numbers. The number of a fraction decides which of three forms its mixed text has, and the number
can be read off the text again, so no two fractions have the same mixed text.
-/

namespace FractionCalculator

namespace Fraction

theorem isInteger_iff (value : Fraction) :
    value.isInteger = true ↔ ∃ whole : ℤ, value.toRat = whole := by
  constructor
  · intro integer
    refine ⟨value.numerator, ?_⟩
    rw [← toRat_ofInt, (text_of_isInteger integer).2]
  · rintro ⟨whole, same⟩
    rw [isInteger, beq_iff_eq, ← den_toRat, same, Rat.den_intCast]

theorem not_isInteger_of_below {part : Fraction} (nonzero : part.numerator ≠ 0)
    (below : part.numerator.natAbs < part.denominator) : ¬part.isInteger = true := by
  rw [isInteger, beq_iff_eq]
  omega

theorem text_of_below {part : Fraction} (nonzero : part.numerator ≠ 0)
    (below : part.numerator.natAbs < part.denominator) :
    part.text = part.numerator.repr ++ "/" ++ part.denominator.repr :=
  if_neg (not_isInteger_of_below nonzero below)

theorem text_ofInt (value : Int) : (ofInt value).text = value.repr :=
  rfl

theorem space_not_mem_text (value : Fraction) : ' ' ∉ value.text.toList := by
  have noSpace (number : Int) : ' ' ∉ number.repr.toList := by
    intro member
    exact absurd (DecimalLiteral.visible_of_read? (read?_repr number) ' ' member) (by decide)
  by_cases integer : value.isInteger = true
  · rw [(text_of_isInteger integer).1]
    exact noSpace value.numerator
  · rw [text_of_not_isInteger integer]
    simp [noSpace]

section Parts

variable {value : Fraction}

theorem numerator_ne_zero_of_fractional (fractional : ¬value.isInteger = true) :
    value.numerator ≠ 0 := by
  intro zero
  apply fractional
  rw [isInteger_iff]
  exact ⟨0, by rw [Int.cast_zero, toRat_eq_zero_iff, zero]⟩

theorem below_of_integerPart_eq_zero (nothing : value.integerPart = 0) :
    value.numerator.natAbs < value.denominator := by
  have size := value.abs_integerPart_add_fractionPart
  rw [nothing, Int.cast_zero, abs_zero, zero_add] at size
  rw [← abs_toRat_lt_one_iff, ← size, toRat_fractionPart]
  exact Int.fract_lt_one _

theorem fractionPart_positive (fractional : ¬value.isInteger = true) :
    0 < value.fractionPart.numerator := by
  rw [← toRat_pos_iff, toRat_fractionPart, Int.fract_pos]
  intro whole
  apply fractional
  rw [isInteger_iff]
  rcases eq_or_eq_neg_of_abs_eq whole with same | same
  · exact ⟨_, same⟩
  · exact ⟨-⌊|value.toRat|⌋, by rw [Int.cast_neg, ← same]⟩

theorem fractionPart_below (value : Fraction) :
    value.fractionPart.numerator.natAbs < value.fractionPart.denominator := by
  rw [← abs_toRat_lt_one_iff, toRat_fractionPart, abs_of_nonneg (Int.fract_nonneg _)]
  exact Int.fract_lt_one _

end Parts

end Fraction

inductive MixedForm
  | whole
  | proper
  | beside
deriving DecidableEq

/-- A mixed number in lowest terms. The fraction beside a whole number is positive, since the sign of
the whole number counts for both. -/
inductive MixedNumeral
  | whole (value : Int)
  | proper (part : Fraction) (nonzero : part.numerator ≠ 0)
      (below : part.numerator.natAbs < part.denominator)
  | beside (value : Int) (part : Fraction) (nonzero : value ≠ 0) (positive : 0 < part.numerator)
      (below : part.numerator.natAbs < part.denominator)

namespace MixedNumeral

def form : MixedNumeral → MixedForm
  | whole _ => .whole
  | proper _ _ _ => .proper
  | beside _ _ _ _ _ => .beside

def text : MixedNumeral → String
  | whole value => value.repr
  | proper part _ _ => part.numerator.repr ++ "/" ++ part.denominator.repr
  | beside value part _ _ _ =>
      value.repr ++ " " ++ (part.numerator.repr ++ "/" ++ part.denominator.repr)

def number : MixedNumeral → ℚ
  | whole value => value
  | proper part _ _ => part.toRat
  | beside value part _ _ _ => if 0 < value then value + part.toRat else value - part.toRat

/-! The number tells the form. -/

theorem not_intCast_of_between {number : ℚ} (positive : 0 < number) (below : number < 1)
    (whole : ℤ) : number ≠ whole := by
  rintro rfl
  have lower : 0 < whole := by exact_mod_cast positive
  have upper : whole < 1 := by exact_mod_cast below
  omega

theorem abs_number_proper {part : Fraction} (nonzero : part.numerator ≠ 0)
    (below : part.numerator.natAbs < part.denominator) :
    0 < |(proper part nonzero below).number| ∧ |(proper part nonzero below).number| < 1 := by
  rw [number, abs_pos, ne_eq, Fraction.toRat_eq_zero_iff]
  exact ⟨nonzero, part.abs_toRat_lt_one_iff.mpr below⟩

theorem abs_number_beside {value : Int} {part : Fraction} (nonzero : value ≠ 0)
    (positive : 0 < part.numerator) (below : part.numerator.natAbs < part.denominator) :
    |(beside value part nonzero positive below).number| = |(value : ℚ)| + part.toRat := by
  have partPositive := part.toRat_pos_iff.mpr positive
  rw [number]
  split_ifs with above
  · have valuePositive : (0 : ℚ) < value := Int.cast_pos.mpr above
    rw [abs_of_pos valuePositive, abs_of_pos (by linarith)]
  · have valueNegative : (value : ℚ) < 0 := Int.cast_lt_zero.mpr (by omega)
    rw [abs_of_neg valueNegative, abs_of_neg (by linarith)]
    ring

theorem form_eq_whole_iff (numeral : MixedNumeral) :
    numeral.form = .whole ↔ ∃ whole : ℤ, numeral.number = whole := by
  cases numeral with
  | whole value => exact ⟨fun _ => ⟨value, rfl⟩, fun _ => rfl⟩
  | proper part nonzero below =>
      obtain ⟨positive, small⟩ := abs_number_proper nonzero below
      constructor
      · intro impossible
        cases impossible
      · rintro ⟨whole, same⟩
        rw [same, ← Int.cast_abs] at positive small
        exact absurd rfl (not_intCast_of_between positive small |whole|)
  | beside value part nonzero positive below =>
      have size := abs_number_beside nonzero positive below
      have small := (le_abs_self _).trans_lt (part.abs_toRat_lt_one_iff.mpr below)
      constructor
      · intro impossible
        cases impossible
      · rintro ⟨whole, same⟩
        -- The fraction beside the whole part would be a difference of whole numbers.
        have difference : part.toRat = ((|whole| - |value| : ℤ) : ℚ) := by
          rw [same] at size
          push_cast
          linarith
        exact absurd difference
          (not_intCast_of_between (part.toRat_pos_iff.mpr positive) small _)

theorem form_eq_proper_iff (numeral : MixedNumeral) :
    numeral.form = .proper ↔ 0 < |numeral.number| ∧ |numeral.number| < 1 := by
  cases numeral with
  | whole value =>
      constructor
      · intro impossible
        cases impossible
      · rintro ⟨positive, small⟩
        rw [number, ← Int.cast_abs] at positive small
        exact absurd rfl (not_intCast_of_between positive small |value|)
  | proper part nonzero below => exact ⟨fun _ => abs_number_proper nonzero below, fun _ => rfl⟩
  | beside value part nonzero positive below =>
      have size := abs_number_beside nonzero positive below
      have partPositive := part.toRat_pos_iff.mpr positive
      have atLeastOne : (1 : ℚ) ≤ |(value : ℚ)| := by
        exact_mod_cast Int.one_le_abs nonzero
      constructor
      · intro impossible
        cases impossible
      · rintro ⟨_, small⟩
        linarith

theorem form_eq_beside_iff (numeral : MixedNumeral) :
    numeral.form = .beside ↔ (¬∃ whole : ℤ, numeral.number = whole) ∧
      ¬(0 < |numeral.number| ∧ |numeral.number| < 1) := by
  rw [← form_eq_whole_iff, ← form_eq_proper_iff]
  cases numeral.form <;> decide

/-! The text tells the numeral: both sides of its space are texts of fractions. -/

def leading : MixedNumeral → Fraction
  | whole value => .ofInt value
  | proper part _ _ => part
  | beside value _ _ _ _ => .ofInt value

def trailing : MixedNumeral → Option Fraction
  | beside _ part _ _ _ => some part
  | _ => none

theorem toList_text (numeral : MixedNumeral) : numeral.text.toList =
    numeral.leading.text.toList ++
      numeral.trailing.elim [] fun part => ' ' :: part.text.toList := by
  cases numeral with
  | whole value => simp [text, leading, trailing, Fraction.text_ofInt]
  | proper part nonzero below =>
      simp [text, leading, trailing, Fraction.text_of_below nonzero below]
  | beside value part nonzero positive below =>
      simp [text, leading, trailing, Fraction.text_ofInt,
        Fraction.text_of_below positive.ne' below]

theorem cutAt_text (numeral : MixedNumeral) :
    cutAt (fun character => character == ' ') numeral.text.toList =
      (numeral.leading.text.toList, numeral.trailing.map fun part => part.text.toList) := by
  have plain : ∀ character ∈ numeral.leading.text.toList, (character == ' ') = false := by
    intro character member
    rw [beq_eq_false_iff_ne]
    rintro rfl
    exact numeral.leading.space_not_mem_text member
  rw [toList_text]
  cases numeral.trailing with
  | none => simpa using cutAt_of_forall_not plain
  | some part => exact cutAt_append plain rfl

theorem ofInt_ne_of_below {part : Fraction} (nonzero : part.numerator ≠ 0)
    (below : part.numerator.natAbs < part.denominator) (value : Int) :
    Fraction.ofInt value ≠ part := by
  rintro rfl
  exact Fraction.not_isInteger_of_below nonzero below rfl

theorem eq_of_parts {numeral other : MixedNumeral} (leadings : numeral.leading = other.leading)
    (trailings : numeral.trailing = other.trailing) : numeral = other := by
  cases numeral <;> cases other
  case whole.proper value part nonzero below =>
    exact absurd leadings (ofInt_ne_of_below nonzero below value)
  case proper.whole part nonzero below value =>
    exact absurd leadings.symm (ofInt_ne_of_below nonzero below value)
  all_goals simp_all [leading, trailing, Fraction.ofInt]

theorem text_injective : Function.Injective text := by
  intro numeral other same
  have cuts := congrArg
    (fun written => cutAt (fun character => character == ' ') written.toList) same
  simp only [cutAt_text, Prod.mk.injEq] at cuts
  have partTexts : Function.Injective fun part : Fraction => part.text.toList := by
    intro part otherPart sameText
    exact Fraction.text_injective (String.toList_injective sameText)
  exact eq_of_parts (partTexts cuts.1) (Option.map_injective partTexts cuts.2)

/-! Every fraction has a numeral, and its mixed text is the text of it. -/

def ofFraction (value : Fraction) : MixedNumeral :=
  if integer : value.isInteger = true then
    whole value.numerator
  else if nothing : value.integerPart = 0 then
    proper value (Fraction.numerator_ne_zero_of_fractional integer)
      (Fraction.below_of_integerPart_eq_zero nothing)
  else
    beside value.integerPart value.fractionPart nothing (Fraction.fractionPart_positive integer)
      value.fractionPart_below

theorem text_ofFraction (value : Fraction) : (ofFraction value).text = value.mixedText := by
  unfold ofFraction
  split_ifs with integer nothing
  · simp [text, Fraction.mixedText, integer, (Fraction.text_of_isInteger integer).1]
  · simp [text, Fraction.mixedText, Fraction.text, integer, nothing]
  · have part := Fraction.text_of_below (Fraction.fractionPart_positive integer).ne'
      value.fractionPart_below
    simp [text, Fraction.mixedText, integer, nothing, part]

theorem number_beside_integerPart {value : Fraction} (nonzero : value.integerPart ≠ 0)
    (positive : 0 < value.fractionPart.numerator)
    (below : value.fractionPart.numerator.natAbs < value.fractionPart.denominator) :
    (beside value.integerPart value.fractionPart nonzero positive below).number = value.toRat := by
  have size := value.abs_integerPart_add_fractionPart
  rw [number]
  -- A whole part that is not zero has the sign of the fraction.
  split_ifs with above
  · have nonneg : 0 ≤ value.toRat := by
      by_contra negative
      have wholeNonpos := Fraction.integerPart_nonpos (not_le.mp negative).le
      omega
    rwa [abs_of_pos (Int.cast_pos.mpr above), abs_of_nonneg nonneg] at size
  · have nonpos : value.toRat ≤ 0 := by
      by_contra numberPositive
      have wholeNonneg := Fraction.integerPart_nonneg (not_le.mp numberPositive).le
      omega
    have wholeNonpos : (value.integerPart : ℚ) ≤ 0 := Int.cast_nonpos.mpr (not_lt.mp above)
    rw [abs_of_nonpos wholeNonpos, abs_of_nonpos nonpos] at size
    linarith

theorem number_ofFraction (value : Fraction) : (ofFraction value).number = value.toRat := by
  unfold ofFraction
  split_ifs with integer nothing
  · rw [number, ← Fraction.toRat_ofInt, (Fraction.text_of_isInteger integer).2]
  · rfl
  · exact number_beside_integerPart _ _ _

theorem text_eq_mixedText_iff (value : Fraction) (numeral : MixedNumeral) :
    numeral.text = value.mixedText ↔ numeral = ofFraction value := by
  rw [← text_ofFraction]
  exact text_injective.eq_iff

end MixedNumeral

/-- The mixed text of a fraction is the text of exactly one mixed numeral, and that numeral denotes the
number of the fraction. It is a whole number alone for the whole numbers, a proper fraction alone between
minus one and one, and both for all others. -/
theorem mixedText_faithful :
    (∀ value : Fraction, ∃ numeral : MixedNumeral,
      (∀ other : MixedNumeral, other.text = value.mixedText ↔ other = numeral) ∧
      numeral.number = value.toRat ∧
      (numeral.form = .whole ↔ ∃ whole : ℤ, value.toRat = whole) ∧
      (numeral.form = .proper ↔ 0 < |value.toRat| ∧ |value.toRat| < 1) ∧
      (numeral.form = .beside ↔ (¬∃ whole : ℤ, value.toRat = whole) ∧
        ¬(0 < |value.toRat| ∧ |value.toRat| < 1))) ∧
    ∀ value other : Fraction, value.mixedText = other.mixedText ↔ value = other := by
  refine ⟨?_, ?_⟩
  · intro value
    refine ⟨.ofFraction value, MixedNumeral.text_eq_mixedText_iff value,
      MixedNumeral.number_ofFraction value, ?_⟩
    rw [← MixedNumeral.number_ofFraction value]
    exact ⟨MixedNumeral.form_eq_whole_iff _, MixedNumeral.form_eq_proper_iff _,
      MixedNumeral.form_eq_beside_iff _⟩
  · intro value other
    constructor
    · intro same
      have numeral := (MixedNumeral.text_eq_mixedText_iff other (.ofFraction value)).mp
        ((MixedNumeral.text_ofFraction value).trans same)
      apply Fraction.toRat_injective
      rw [← MixedNumeral.number_ofFraction value, numeral, MixedNumeral.number_ofFraction]
    · rintro rfl
      rfl

end FractionCalculator
