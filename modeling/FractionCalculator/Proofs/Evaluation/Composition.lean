import Mathlib
import FractionCalculator.Proofs.Evaluation.Failure
import FractionCalculator.Proofs.Fraction.RoundTrip

/-!
Texts put together from accepted texts. Their values are put together in the same way, and an error
in the text that stands first comes first.
-/

namespace FractionCalculator

open Lexeme

def exactValue (text : String) : Except CalculationError Fraction :=
  match Expression.parse text with
  | .error malformation => .error (.malformed malformation)
  | .ok expression => expression.evaluate

theorem exactValue_of_parse {text : String} {expression : Expression}
    (accepted : Expression.parse text = .ok expression) : exactValue text = expression.value := by
  rw [exactValue, accepted, ← expression.evaluate_eq_value]

def Operator.calculation : Operator → ℚ → ℚ → ℚ
  | .add => (· + ·)
  | .subtract => (· - ·)
  | .multiply => (· * ·)
  | .divide => (· / ·)

theorem Operator.apply_calculation {operator : Operator} {right : Fraction}
    (safe : ¬operator.DividesByZero right) (left : Fraction) :
    ∃ result, operator.apply left right = .ok result ∧
      result.toRat = operator.calculation left.toRat right.toRat := by
  cases operator with
  | add => exact ⟨_, rfl, Fraction.toRat_add left right⟩
  | subtract => exact ⟨_, rfl, Fraction.toRat_sub left right⟩
  | multiply => exact ⟨_, rfl, Fraction.toRat_mul left right⟩
  | divide =>
      apply left.divide_toRat
      rw [ne_eq, Fraction.toRat_eq_zero_iff]
      exact fun zero => safe ⟨rfl, zero⟩

/-- A text has the value that an operator makes of the values of two others. The first error among
them, or else the division by zero, is the error of the text. -/
structure Combines (operator : Operator) (left right text : String) : Prop where
  leftError : ∀ error, exactValue left = .error error → exactValue text = .error error
  rightError : ∀ leftValue error, exactValue left = .ok leftValue →
    exactValue right = .error error → exactValue text = .error error
  zero : ∀ leftValue rightValue, exactValue left = .ok leftValue →
    exactValue right = .ok rightValue → operator.DividesByZero rightValue →
    exactValue text = .error .divisionByZero
  values : ∀ leftValue rightValue, exactValue left = .ok leftValue →
    exactValue right = .ok rightValue → ¬operator.DividesByZero rightValue →
    ∃ result, exactValue text = .ok result ∧
      result.toRat = operator.calculation leftValue.toRat rightValue.toRat

theorem Combines.of_value {operator : Operator} {left right text : String}
    {leftTree rightTree : Expression} (leftValue : exactValue left = leftTree.value)
    (rightValue : exactValue right = rightTree.value)
    (whole : exactValue text = (Expression.binary operator leftTree rightTree).value) :
    Combines operator left right text := by
  constructor <;> rw [leftValue, whole]
  · intro error failed
    exact Expression.value_of_left_error failed
  all_goals rw [rightValue]
  · intro first error leftRead failed
    exact Expression.value_of_right_error leftRead failed
  · intro first second leftRead rightRead divides
    rw [Expression.value_of_values leftRead rightRead]
    exact Operator.apply_of_dividesByZero divides first
  · intro first second leftRead rightRead safe
    rw [Expression.value_of_values leftRead rightRead]
    exact Operator.apply_calculation safe first

/-! A plus between two sums makes one sum of them, which associates to the left across the plus. -/

namespace SumPhrase

def plus (left : SumPhrase) : SumPhrase → SumPhrase
  | .single term => .chain left .add rfl term
  | .chain right sign additive term => .chain (left.plus right) sign additive term

theorem lexemes_plus (left right : SumPhrase) :
    (left.plus right).lexemes = left.lexemes ++ .operator .add :: right.lexemes := by
  fun_induction plus left right with
  | case1 term => rfl
  | case2 right sign additive term ih =>
      simp only [lexemes, ih, List.append_assoc, List.cons_append]

end SumPhrase

theorem Operator.apply_add_assoc {sign : Operator} (additive : sign.additive = true)
    (first second third : Fraction) : sign.apply (first + second) third =
      (sign.apply second third >>= fun later => .ok (first + later)) := by
  cases sign with
  | add =>
      have same : first + second + third = first + (second + third) :=
        Fraction.toRat_injective (by simp only [Fraction.toRat_add, add_assoc])
      exact congrArg Except.ok same
  | subtract =>
      have same : first + second - third = first + (second - third) :=
        Fraction.toRat_injective
          (by simp only [Fraction.toRat_add, Fraction.toRat_sub, add_sub_assoc])
      exact congrArg Except.ok same
  | multiply | divide => simp [Operator.additive] at additive

theorem SumPhrase.value_plus (left right : SumPhrase) :
    (left.plus right).expression.value =
      (Expression.binary .add left.expression right.expression).value := by
  fun_induction plus left right with
  | case1 term => rfl
  | case2 right sign additive term ih =>
      simp only [SumPhrase.expression, Expression.value] at ih ⊢
      simp only [ih, bind_assoc]
      -- Both sides are evaluated in the same order, so only the values have to be compared.
      refine bind_congr fun first => bind_congr fun second => ?_
      change (term.expression.value >>= fun third => sign.apply (first + second) third) = _
      exact bind_congr fun third => Operator.apply_add_assoc additive first second third

/-! Characters with an operator between them, or with parentheses around them. -/

theorem lexemesIn_sign (sign : Operator) (rest : List Char) :
    lexemesIn (sign.symbol :: rest) = .operator sign :: lexemesIn rest := by
  rw [lexemesIn_mark (symbol_mem_marks sign), leading_symbol]

theorem lexemesIn_append_sign (before : List Char) (sign : Operator) (rest : List Char) :
    lexemesIn (before ++ sign.symbol :: rest) =
      lexemesIn before ++ .operator sign :: lexemesIn rest := by
  rw [lexemesIn_append_mark (symbol_mem_marks sign), leading_symbol]

theorem lexemesIn_enclosed (inside rest : List Char) :
    lexemesIn ('(' :: (inside ++ ')' :: rest)) =
      .opening :: (lexemesIn inside ++ .closing :: lexemesIn rest) := by
  rw [lexemesIn_mark (by decide), lexemesIn_append_mark (by decide)]
  rfl

structure Reads (limit : Nat) (characters : List Char) (phrase : SumPhrase) : Prop where
  lexemes : lexemesIn characters = phrase.lexemes
  nests : NestsWithin limit phrase.lexemes

namespace Reads

variable {limit : Nat} {left right characters : List Char} {first second phrase : SumPhrase}

theorem of_parse {text : String} {expression : Expression}
    (accepted : Expression.parse text = .ok expression) :
    ∃ phrase, Reads maximumNesting text.toList phrase ∧ phrase.expression = expression := by
  obtain ⟨phrase, spells, nests, same⟩ := phrase_of_parse accepted
  exact ⟨phrase, ⟨lexemesIn_of_spells spells, nests⟩, same⟩

theorem parse {text : String} (reads : Reads maximumNesting characters phrase)
    (spelled : text.toList = characters) : Expression.parse text = .ok phrase.expression :=
  parse_of_phrase (spelled ▸ reads.lexemes) reads.nests

theorem exactValue_eq {text : String} (reads : Reads maximumNesting characters phrase)
    (spelled : text.toList = characters) : exactValue text = phrase.expression.value :=
  exactValue_of_parse (reads.parse spelled)

theorem within {shallow : Nat} (reads : Reads limit characters phrase)
    (nests : NestsWithin shallow (lexemesIn characters)) : Reads shallow characters phrase :=
  ⟨reads.lexemes, reads.lexemes ▸ nests⟩

theorem sum (before : Reads limit left first) (after : Reads limit right second) :
    Reads limit (left ++ '+' :: right) (first.plus second) := by
  constructor
  · have split := lexemesIn_append_sign left .add right
    rw [before.lexemes, after.lexemes, ← SumPhrase.lexemes_plus] at split
    exact split
  · rw [SumPhrase.lexemes_plus]
    exact before.nests.append first.balanced (after.nests.operator .add)

theorem difference (before : Reads (limit + 1) left first) (after : Reads limit right second) :
    Reads (limit + 1) (left ++ '-' :: '(' :: (right ++ [')']))
      (.chain first .subtract rfl (.single (.grouped second))) := by
  constructor
  · have split := lexemesIn_append_sign left .subtract ('(' :: (right ++ [')']))
    rw [lexemesIn_enclosed, before.lexemes, after.lexemes, lexemesIn_nil] at split
    exact split
  · exact before.nests.append first.balanced (after.nests.enclosed.operator .subtract)

theorem product (sign : Operator) (multiplicative : sign.additive = false)
    (before : Reads limit left first) (after : Reads limit right second) :
    Reads (limit + 1) ('(' :: (left ++ ')' :: sign.symbol :: '(' :: (right ++ [')'])))
      (.single (.chain (.single (.grouped first)) sign multiplicative (.grouped second))) := by
  constructor
  · rw [lexemesIn_enclosed, lexemesIn_sign, lexemesIn_enclosed, before.lexemes, after.lexemes,
      lexemesIn_nil]
    simp only [SumPhrase.lexemes, TermPhrase.lexemes, PrimaryPhrase.lexemes, List.append_assoc,
      List.cons_append, List.nil_append]
  · exact before.nests.enclosed.append (PrimaryPhrase.balanced (.grouped first))
      (after.nests.enclosed.operator sign)

theorem beside (before : Reads limit left first) (after : Reads limit right second) :
    Reads (limit + 1) ('(' :: (left ++ ')' :: '(' :: (right ++ [')'])))
      (.single (.beside (.single (.grouped first)) second)) := by
  constructor
  · rw [lexemesIn_enclosed, lexemesIn_enclosed, before.lexemes, after.lexemes, lexemesIn_nil]
    simp only [SumPhrase.lexemes, TermPhrase.lexemes, PrimaryPhrase.lexemes, List.append_assoc,
      List.cons_append, List.nil_append]
  · exact before.nests.enclosed.append (PrimaryPhrase.balanced (.grouped first))
      after.nests.enclosed

theorem group (inside : Reads limit characters phrase) :
    Reads (limit + 1) ('(' :: (characters ++ [')'])) (.single (.single (.grouped phrase))) := by
  constructor
  · rw [lexemesIn_enclosed, inside.lexemes, lexemesIn_nil]
    rfl
  · exact inside.nests.enclosed

theorem negation (inside : Reads limit characters phrase) :
    Reads (limit + 1) ('-' :: '(' :: (characters ++ [')']))
      (.single (.single (.negated phrase))) := by
  constructor
  · have split := lexemesIn_sign .subtract ('(' :: (characters ++ [')']))
    rw [inside.group.lexemes] at split
    exact split
  · exact inside.group.nests.operator .subtract

end Reads

theorem Fraction.minusOne_mul (value : Fraction) : Fraction.ofInt (-1) * value = -value := by
  apply Fraction.toRat_injective
  simp

theorem exactValue_negation {text : String} {phrase : SumPhrase}
    (inside : Reads 255 text.toList phrase) :
    exactValue ("-(" ++ text ++ ")") = phrase.expression.value.map fun value => -value := by
  have written : Int.repr (-1) = "-1" := by decide
  have unit := Fraction.value_number (-1)
  rw [written] at unit
  rw [inside.negation.exactValue_eq (by simp)]
  change (Expression.binary .multiply (.number "-1") phrase.expression).value = _
  cases read : phrase.expression.value with
  | error error => exact Expression.value_of_right_error unit read
  | ok value =>
      rw [Expression.value_of_values unit read]
      exact congrArg Except.ok value.minusOne_mul

/-- Accepted texts with a plus between them have the sum of their values. In parentheses they can be
subtracted, multiplied, divided and negated, as long as no more than 255 parentheses are open in
them. Parentheses around a text do not change what it is parsed to. -/
theorem exactValue_compositional {left right : String} {leftTree rightTree : Expression}
    (leftAccepted : Expression.parse left = .ok leftTree)
    (rightAccepted : Expression.parse right = .ok rightTree) :
    Combines .add left right (left ++ "+" ++ right) ∧
    (NestsWithin 255 (lexemesIn left.toList) →
      exactValue ("-(" ++ left ++ ")") = ((exactValue left).map fun value => -value) ∧
      Expression.parse ("(" ++ left ++ ")") = .ok leftTree) ∧
    (NestsWithin 255 (lexemesIn right.toList) →
      Combines .subtract left right (left ++ "-(" ++ right ++ ")")) ∧
    (NestsWithin 255 (lexemesIn left.toList) → NestsWithin 255 (lexemesIn right.toList) →
      Combines .multiply left right ("(" ++ left ++ ")*(" ++ right ++ ")") ∧
      Combines .multiply left right ("(" ++ left ++ ")(" ++ right ++ ")") ∧
      Combines .divide left right ("(" ++ left ++ ")/(" ++ right ++ ")")) := by
  obtain ⟨first, leftReads, rfl⟩ := Reads.of_parse leftAccepted
  obtain ⟨second, rightReads, rfl⟩ := Reads.of_parse rightAccepted
  have leftValue := leftReads.exactValue_eq rfl
  have rightValue := rightReads.exactValue_eq rfl
  refine ⟨?_, ?_, ?_, ?_⟩
  · apply Combines.of_value leftValue rightValue
    rw [(leftReads.sum rightReads).exactValue_eq (by simp), SumPhrase.value_plus]
  · intro leftShallow
    have inside := leftReads.within leftShallow
    refine ⟨?_, inside.group.parse (by simp)⟩
    rw [exactValue_negation inside, leftValue]
  · intro rightShallow
    have after := rightReads.within rightShallow
    exact .of_value leftValue rightValue ((leftReads.difference after).exactValue_eq (by simp))
  · intro leftShallow rightShallow
    have before := leftReads.within leftShallow
    have after := rightReads.within rightShallow
    refine ⟨?_, ?_, ?_⟩
    · exact .of_value leftValue rightValue
        ((before.product .multiply rfl after).exactValue_eq (by simp [Operator.symbol]))
    · exact .of_value leftValue rightValue ((before.beside after).exactValue_eq (by simp))
    · exact .of_value leftValue rightValue
        ((before.product .divide rfl after).exactValue_eq (by simp [Operator.symbol]))

theorem exactValue_of_differences :
    (∃ left right, Expression.parse "1-2(3)" = .ok left ∧
      Expression.parse "-(4)/5 - 6" = .ok right) ∧
    (∃ sum, exactValue ("1-2(3)" ++ "+" ++ "-(4)/5 - 6") = .ok sum ∧
      sum.toRat = (-5) + (-34) / 5) ∧
    ∃ quotient, exactValue ("(" ++ "1-2(3)" ++ ")/(" ++ "-(4)/5 - 6" ++ ")") = .ok quotient ∧
      quotient.toRat = (-5) / ((-34) / 5) := by
  have leftAccepted : Expression.parse "1-2(3)" = .ok
      (.binary .subtract (.number "1") (.binary .multiply (.number "2") (.number "3"))) := by
    decide +kernel
  have rightAccepted : Expression.parse "-(4)/5 - 6" = .ok
      (.binary .subtract
        (.binary .divide (.binary .multiply (.number "-1") (.number "4")) (.number "5"))
        (.number "6")) := by
    decide +kernel
  have leftValue : exactValue "1-2(3)" = .ok (Fraction.ofInt (-5)) := by decide +kernel
  have rightValue : exactValue "-(4)/5 - 6" = .ok (Fraction.reduce (-34) 5 (by decide)) := by
    decide +kernel
  have leftShallow : NestsWithin 255 (lexemesIn "1-2(3)".toList) :=
    NestsWithin.of_count_opening (by decide +kernel)
  have rightShallow : NestsWithin 255 (lexemesIn "-(4)/5 - 6".toList) :=
    NestsWithin.of_count_opening (by decide +kernel)
  obtain ⟨sum, _, _, factors⟩ := exactValue_compositional leftAccepted rightAccepted
  obtain ⟨_, _, quotient⟩ := factors leftShallow rightShallow
  refine ⟨⟨_, _, leftAccepted, rightAccepted⟩, ?_, ?_⟩
  · simpa [Operator.calculation] using sum.values _ _ leftValue rightValue
      (by simp [Operator.DividesByZero])
  · simpa [Operator.calculation] using quotient.values _ _ leftValue rightValue
      (by rintro ⟨_, zero⟩; exact absurd zero (by decide))

end FractionCalculator
