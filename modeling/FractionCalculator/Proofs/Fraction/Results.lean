import Mathlib
import FractionCalculator.Proofs.Evaluation.Composition
import FractionCalculator.Proofs.Fraction.Arithmetic
import FractionCalculator.Proofs.Fraction.Reading

/-!
Operations one after another, each on results of earlier ones. The same list of operations can be
worked off in fractions and in rational numbers, and the fractions that come out are the numbers that
come out, in lowest terms.
-/

namespace FractionCalculator

open DecimalLiteral

inductive Source
  | ratio (numerator denominator : Int)
  | whole (value : Int)
  | decimal (literal : DecimalLiteral)
  | decimalPair (above below : DecimalLiteral)
  | reading (text : String)
  | oneHalf
  | oneThird

inductive Unary
  | negate
  | abs
  | inverse
  | fractionPart
  | power (exponent : Int)

inductive Binary
  | combine (operator : Operator)
  | min
  | max

inductive Operation
  | source (source : Source)
  | unary (operation : Unary) (argument : Nat)
  | binary (operation : Binary) (left right : Nat)

structure Arithmetic (Value : Type) where
  source : Source → Option Value
  unary : Unary → Value → Option Value
  binary : Binary → Value → Value → Option Value

namespace Arithmetic

variable {Value Other : Type}

def result? (arithmetic : Arithmetic Value) (earlier : List Value) : Operation → Option Value
  | .source source => arithmetic.source source
  | .unary operation argument => do
      let value ← earlier[argument]?
      arithmetic.unary operation value
  | .binary operation left right => do
      let leftValue ← earlier[left]?
      let rightValue ← earlier[right]?
      arithmetic.binary operation leftValue rightValue

/-- An operation that fails, or one of whose arguments does not exist, leaves the results as they
are. -/
def resultsFrom (arithmetic : Arithmetic Value) : List Value → List Operation → List Value
  | earlier, [] => earlier
  | earlier, operation :: later =>
      arithmetic.resultsFrom (earlier ++ (arithmetic.result? earlier operation).toList) later

def results (arithmetic : Arithmetic Value) (operations : List Operation) : List Value :=
  arithmetic.resultsFrom [] operations

structure Translates (arithmetic : Arithmetic Value) (other : Arithmetic Other)
    (translate : Value → Other) : Prop where
  source : ∀ source, (arithmetic.source source).map translate = other.source source
  unary : ∀ operation value,
    (arithmetic.unary operation value).map translate = other.unary operation (translate value)
  binary : ∀ operation left right, (arithmetic.binary operation left right).map translate =
    other.binary operation (translate left) (translate right)

namespace Translates

variable {arithmetic : Arithmetic Value} {other : Arithmetic Other} {translate : Value → Other}
  (translates : arithmetic.Translates other translate)

include translates

theorem map_result? (earlier : List Value) (operation : Operation) :
    (arithmetic.result? earlier operation).map translate =
      other.result? (earlier.map translate) operation := by
  cases operation with
  | source source => exact translates.source source
  | unary operation argument =>
      simp only [result?, List.getElem?_map]
      cases earlier[argument]? with
      | none => rfl
      | some value => exact translates.unary operation value
  | binary operation left right =>
      simp only [result?, List.getElem?_map]
      cases earlier[left]? with
      | none => rfl
      | some leftValue =>
          cases earlier[right]? with
          | none => rfl
          | some rightValue => exact translates.binary operation leftValue rightValue

theorem map_resultsFrom (earlier : List Value) (operations : List Operation) :
    (arithmetic.resultsFrom earlier operations).map translate =
      other.resultsFrom (earlier.map translate) operations := by
  induction operations generalizing earlier with
  | nil => rfl
  | cons operation later ih =>
      rw [resultsFrom, resultsFrom, ih, List.map_append, ← translates.map_result?,
        Option.toList_map]

theorem map_results (operations : List Operation) :
    (arithmetic.results operations).map translate = other.results operations :=
  translates.map_resultsFrom [] operations

end Translates

end Arithmetic

/-! The operations on fractions, and the numbers they ought to give. -/

def Source.fraction? : Source → Option Fraction
  | ratio numerator denominator => (Fraction.ofRatio numerator denominator).toOption
  | whole value => some (.ofInt value)
  | decimal literal => some (.ofLiteral literal)
  | decimalPair above below => (Fraction.ofLiteralPair above below).toOption
  | reading text => (Fraction.ofText text).toOption
  | oneHalf => some .oneHalf
  | oneThird => some .oneThird

def Unary.fraction? : Unary → Fraction → Option Fraction
  | negate, value => some (-value)
  | abs, value => some value.abs
  | inverse, value => value.inverse.toOption
  | fractionPart, value => some value.fractionPart
  | power exponent, value => (value.power exponent).toOption

def Binary.fraction? : Binary → Fraction → Fraction → Option Fraction
  | combine operator, left, right => (operator.apply left right).toOption
  | min, left, right => some (Min.min left right)
  | max, left, right => some (Max.max left right)

def fractions : Arithmetic Fraction :=
  ⟨Source.fraction?, Unary.fraction?, Binary.fraction?⟩

def quotient? (above below : ℚ) : Option ℚ :=
  if below = 0 then none else some (above / below)

def textNumber? (text : String) : Option ℚ :=
  match (withoutBlanks text.toList).splitOn '/' with
  | [whole] => (read? whole).map toRat
  | [front, back] => do
      let above ← read? front
      let below ← read? back
      quotient? above.toRat below.toRat
  | _ => none

def Source.number? : Source → Option ℚ
  | ratio numerator denominator => quotient? numerator denominator
  | whole value => some value
  | decimal literal => some literal.toRat
  | decimalPair above below => quotient? above.toRat below.toRat
  | reading text => textNumber? text
  | oneHalf => some (1 / 2)
  | oneThird => some (1 / 3)

def Unary.number? : Unary → ℚ → Option ℚ
  | negate, number => some (-number)
  | abs, number => some |number|
  | inverse, number => if number = 0 then none else some number⁻¹
  | fractionPart, number => some (Int.fract |number|)
  | power exponent, number =>
      if number = 0 ∧ exponent < 0 then none else some (number ^ exponent)

def Binary.number? : Binary → ℚ → ℚ → Option ℚ
  | combine .divide, left, right => quotient? left right
  | combine operator, left, right => some (operator.calculation left right)
  | min, left, right => some (Min.min left right)
  | max, left, right => some (Max.max left right)

def numbers : Arithmetic ℚ :=
  ⟨Source.number?, Unary.number?, Binary.number?⟩

theorem number?_of_ok {result : Except CalculationError Fraction} {number : ℚ}
    (found : ∃ value, result = .ok value ∧ value.toRat = number) :
    result.toOption.map Fraction.toRat = some number := by
  obtain ⟨value, rfl, rfl⟩ := found
  rfl

theorem number?_of_error {result : Except CalculationError Fraction} {error : CalculationError}
    (failed : result = .error error) : result.toOption.map Fraction.toRat = none := by
  rw [failed]
  rfl

theorem number?_ofLiteralPair (above below : DecimalLiteral) :
    (Fraction.ofLiteralPair above below).toOption.map Fraction.toRat =
      quotient? above.toRat below.toRat := by
  by_cases zero : below.toRat = 0
  · rw [quotient?, if_pos zero]
    exact number?_of_error (Fraction.ofLiteralPair_of_zero above zero)
  · rw [quotient?, if_neg zero]
    exact number?_of_ok (Fraction.ofLiteralPair_of_ne_zero above zero)

theorem splitOn_of_isQuotient {characters : List Char} {above below : DecimalLiteral}
    (written : Fraction.IsQuotient characters above below) :
    ∃ front back, characters.splitOn '/' = [front, back] ∧ read? front = some above ∧
      read? back = some below := by
  obtain ⟨front, back, rfl, noBar, onlyBar, readFront, readBack⟩ := written
  refine ⟨front, back, ?_, readFront, readBack⟩
  have parts : (['/'].intercalate [front, back]).splitOn '/' = [front, back] :=
    List.splitOn_intercalate '/' (by simp [noBar, onlyBar]) (by simp)
  simpa [List.intercalate] using parts

theorem splitOn_of_isLiteral {characters : List Char} {literal : DecimalLiteral}
    (written : Fraction.IsLiteral characters literal) : characters.splitOn '/' = [characters] := by
  have parts : (['/'].intercalate [characters]).splitOn '/' = [characters] :=
    List.splitOn_intercalate '/' (by simp [written.1]) (by simp)
  simpa [List.intercalate] using parts

theorem textNumber?_of_neither {text : String}
    (noLiteral : ∀ literal, ¬Fraction.IsLiteral (withoutBlanks text.toList) literal)
    (noQuotient : ∀ above below, ¬Fraction.IsQuotient (withoutBlanks text.toList) above below) :
    textNumber? text = none := by
  -- The parts joined again are the text, so readable parts would make it a literal or a quotient.
  have joined : ['/'].intercalate ((withoutBlanks text.toList).splitOn '/') =
      withoutBlanks text.toList := List.intercalate_splitOn '/'
  unfold textNumber?
  split
  case h_1 whole parts =>
    rw [parts] at joined
    obtain rfl : whole = withoutBlanks text.toList := by simpa [List.intercalate] using joined
    cases read : read? (withoutBlanks text.toList) with
    | none => rfl
    | some literal => exact absurd ⟨not_mem_of_read? read, read⟩ (noLiteral literal)
  case h_2 front back parts =>
    rw [parts] at joined
    have whole : withoutBlanks text.toList = front ++ '/' :: back := by
      simpa [List.intercalate] using joined.symm
    cases readFront : read? front with
    | none => rfl
    | some above =>
        cases readBack : read? back with
        | none => rfl
        | some below =>
            exact absurd ⟨front, back, whole, not_mem_of_read? readFront,
              not_mem_of_read? readBack, readFront, readBack⟩ (noQuotient above below)
  case h_3 => rfl

theorem number?_ofText (text : String) :
    (Fraction.ofText text).toOption.map Fraction.toRat = textNumber? text := by
  by_cases literal : ∃ literal, Fraction.IsLiteral (withoutBlanks text.toList) literal
  · obtain ⟨literal, written⟩ := literal
    rw [Fraction.ofText_of_isLiteral written, textNumber?, splitOn_of_isLiteral written]
    simp only [written.2, Option.map_some]
    exact congrArg some (Fraction.toRat_ofLiteral literal)
  by_cases quotient : ∃ above below, Fraction.IsQuotient (withoutBlanks text.toList) above below
  · obtain ⟨above, below, written⟩ := quotient
    obtain ⟨front, back, parts, readFront, readBack⟩ := splitOn_of_isQuotient written
    rw [Fraction.ofText_of_isQuotient written, textNumber?, parts, number?_ofLiteralPair]
    simp only [readFront, readBack, Option.bind_eq_bind, Option.bind_some]
  · simp only [not_exists] at literal quotient
    rw [textNumber?_of_neither literal quotient]
    exact number?_of_error (Fraction.ofText_of_neither literal quotient)

theorem Source.map_fraction? (source : Source) :
    source.fraction?.map Fraction.toRat = source.number? := by
  cases source with
  | ratio numerator denominator =>
      by_cases zero : denominator = 0
      · rw [fraction?, number?, quotient?, zero, Int.cast_zero, if_pos rfl]
        exact number?_of_error (Fraction.ofRatio_zero numerator)
      · rw [fraction?, number?, quotient?, if_neg (Int.cast_ne_zero.mpr zero)]
        exact number?_of_ok (Fraction.ofRatio_of_ne_zero numerator zero)
  | whole value => exact congrArg some (Fraction.toRat_ofInt value)
  | decimal literal => exact congrArg some (Fraction.toRat_ofLiteral literal)
  | decimalPair above below => exact number?_ofLiteralPair above below
  | reading text => exact number?_ofText text
  | oneHalf => exact congrArg some Fraction.toRat_oneHalf
  | oneThird => exact congrArg some Fraction.toRat_oneThird

theorem Unary.map_fraction? (operation : Unary) (value : Fraction) :
    (operation.fraction? value).map Fraction.toRat = operation.number? value.toRat := by
  cases operation with
  | negate => exact congrArg some (Fraction.toRat_neg value)
  | abs => exact congrArg some (Fraction.toRat_abs value)
  | inverse =>
      rw [fraction?, number?]
      split_ifs with zero
      · exact number?_of_error (Fraction.inverse_of_zero zero)
      · exact number?_of_ok (Fraction.inverse_toRat zero)
  | fractionPart => exact congrArg some (Fraction.toRat_fractionPart value)
  | power exponent =>
      rw [fraction?, number?]
      split_ifs with undefined
      · exact number?_of_error (Fraction.power_of_zero undefined.1 undefined.2)
      · rw [not_and_or, not_lt] at undefined
        exact number?_of_ok (Fraction.power_toRat undefined)

theorem Binary.map_fraction? (operation : Binary) (left right : Fraction) :
    (operation.fraction? left right).map Fraction.toRat =
      operation.number? left.toRat right.toRat := by
  cases operation with
  | combine operator =>
      cases operator with
      | add => exact congrArg some (Fraction.toRat_add left right)
      | subtract => exact congrArg some (Fraction.toRat_sub left right)
      | multiply => exact congrArg some (Fraction.toRat_mul left right)
      | divide =>
          rw [fraction?, number?, quotient?]
          split_ifs with zero
          · exact number?_of_error
              (left.divide_of_zero ((Fraction.toRat_eq_zero_iff right).mp zero))
          · exact number?_of_ok (left.divide_toRat zero)
  | min => exact congrArg some (Fraction.toRat_min left right)
  | max => exact congrArg some (Fraction.toRat_max left right)

theorem fractions_translates : fractions.Translates numbers Fraction.toRat where
  source := Source.map_fraction?
  unary := Unary.map_fraction?
  binary := Binary.map_fraction?

section Places

variable {operations : List Operation} {place : Nat} {value : Fraction}
  (found : (fractions.results operations)[place]? = some value)

include found

theorem number_at : (numbers.results operations)[place]? = some value.toRat := by
  rw [← fractions_translates.map_results, List.getElem?_map, found, Option.map_some]

theorem lowest_terms_of_zero (zero : (numbers.results operations)[place]? = some 0) :
    value.numerator = 0 ∧ value.denominator = 1 := by
  rw [number_at found, Option.some_inj] at zero
  constructor
  · rw [← value.num_toRat, zero, Rat.num_zero]
  · rw [← value.den_toRat, zero, Rat.den_zero]

theorem beq_iff_number {other : Fraction} {otherPlace : Nat}
    (otherFound : (fractions.results operations)[otherPlace]? = some other) :
    (value == other) = true ↔
      (numbers.results operations)[place]? = (numbers.results operations)[otherPlace]? := by
  rw [number_at found, number_at otherFound, Option.some_inj, beq_iff_eq]
  exact Fraction.toRat_injective.eq_iff.symm

end Places

theorem Fraction.beq_iff_fields (value other : Fraction) : (value == other) = true ↔
    value.numerator = other.numerator ∧ value.denominator = other.denominator := by
  rw [beq_iff_eq]
  constructor
  · rintro rfl
    exact ⟨rfl, rfl⟩
  · rintro ⟨numerators, denominators⟩
    apply Fraction.toRat_injective
    rw [Fraction.toRat, Fraction.toRat, numerators, denominators]

/-- The fractions that come out of any operations are the numbers that come out of them, written in
lowest terms over a positive denominator. Two of them are equal as soon as the numbers are. -/
theorem results_lowest_terms (operations : List Operation) :
    (fractions.results operations).map (fun value => (value.numerator, value.denominator)) =
        (numbers.results operations).map (fun number => (number.num, number.den)) ∧
      (∀ (place : Nat) (value : Fraction), (fractions.results operations)[place]? = some value →
        0 < value.denominator ∧ value.numerator.natAbs.gcd value.denominator = 1 ∧
          ((numbers.results operations)[place]? = some 0 →
            value.numerator = 0 ∧ value.denominator = 1)) ∧
      ∀ (place otherPlace : Nat) (value other : Fraction),
        (fractions.results operations)[place]? = some value →
        (fractions.results operations)[otherPlace]? = some other →
        ((value == other) = true ↔
          (numbers.results operations)[place]? = (numbers.results operations)[otherPlace]?) ∧
        ((value == other) = true ↔
          value.numerator = other.numerator ∧ value.denominator = other.denominator) := by
  refine ⟨?_, ?_, ?_⟩
  · rw [← fractions_translates.map_results, List.map_map]
    apply List.map_congr_left
    intro value _
    rw [Function.comp_apply, value.num_toRat, value.den_toRat]
  · intro place value found
    exact ⟨value.denominator_pos, value.reduced, lowest_terms_of_zero found⟩
  · intro place otherPlace value other found otherFound
    exact ⟨beq_iff_number found otherFound, value.beq_iff_fields other⟩

def signedQuotients : List Operation :=
  -- The inverse of zero gives no value, so what is made after it comes one place earlier.
  [.source (.reading " 2.5 / -3.5 "), .source (.ratio 6 (-4)), .unary (.power (-3)) 1,
    .binary (.combine .divide) 1 2, .unary .inverse 1, .binary (.combine .subtract) 1 1,
    .unary .inverse 5, .unary .fractionPart 3, .binary .min 0 4]

theorem signedQuotients_lowest_terms : ∃ zero quotient smaller,
    (fractions.results signedQuotients)[5]? = some zero ∧
    (fractions.results signedQuotients)[0]? = some quotient ∧
    (fractions.results signedQuotients)[7]? = some smaller ∧
    zero.denominator = 1 ∧ quotient.numerator.natAbs.gcd quotient.denominator = 1 ∧
    quotient.numerator = -5 ∧ (quotient == smaller) = true ∧
    (numbers.results signedQuotients)[0]? = (numbers.results signedQuotients)[7]? := by
  obtain ⟨_, terms, equal⟩ := results_lowest_terms signedQuotients
  have zero : (fractions.results signedQuotients)[5]? = some (.ofInt 0) := by decide +kernel
  have quotient : (fractions.results signedQuotients)[0]? =
      some (.reduce (-5) 7 (by decide)) := by decide +kernel
  have smaller : (fractions.results signedQuotients)[7]? =
      some (.reduce (-5) 7 (by decide)) := by decide +kernel
  have nothing : (numbers.results signedQuotients)[5]? = some 0 := by
    rw [number_at zero, Fraction.toRat_ofInt, Int.cast_zero]
  refine ⟨_, _, _, zero, quotient, smaller, ((terms 5 _ zero).2.2 nothing).2,
    (terms 0 _ quotient).2.1, by decide +kernel, beq_self_eq_true _, ?_⟩
  exact (equal 0 7 _ _ quotient smaller).1.mp (beq_self_eq_true _)

end FractionCalculator
