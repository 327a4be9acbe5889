import Mathlib
import FractionCalculator.Proofs.Evaluation.Spacing
import FractionCalculator.Proofs.Fraction.Literals
import FractionCalculator.Proofs.Fraction.Reading
import FractionCalculator.Proofs.Grammar.Completion
import FractionCalculator.Proofs.Listing

/-!
A text that is both an expression and a fraction text. It is one number, or two numbers around a bar,
and it has the same value either way.
-/

namespace FractionCalculator

open Awaited DecimalLiteral Lexeme

/-! In an accepted text no number follows another, so its blanks separate nothing. -/

theorem text_eq_mark_of_step {opened : Nat} {lexeme : Lexeme} {next : Awaited}
    (led : (continuation opened).step lexeme = some next) :
    ∃ mark ∈ marks, lexeme.text.toList = [mark] := by
  cases lexeme with
  | operator sign => exact ⟨sign.symbol, symbol_mem_marks sign, by simp [text]⟩
  | opening => exact ⟨'(', by decide, rfl⟩
  | closing => exact ⟨')', by decide, rfl⟩
  | number | name | unknown => simp [step] at led

theorem lexemesIn_flatMap_of_run {awaited reached : Awaited} {lexemes : List Lexeme}
    (readable : ∀ lexeme ∈ lexemes, lexeme.Readable) (led : awaited.run lexemes = some reached) :
    lexemesIn (lexemes.flatMap fun lexeme => lexeme.text.toList) = lexemes := by
  induction lexemes generalizing awaited with
  | nil => exact lexemesIn_nil
  | cons lexeme rest ih =>
      obtain ⟨first, later⟩ := List.forall_mem_cons.mp readable
      rw [run_cons, Option.bind_eq_some_iff] at led
      obtain ⟨next, once, ledOn⟩ := led
      rw [List.flatMap_cons, lexemesIn_append, ih later ledOn, first]
      · rfl
      intro last isLast after isNext
      cases lexeme with
      | number digits =>
          -- What follows a number continues it, so it is an operator or a parenthesis.
          obtain ⟨opened, rfl⟩ : ∃ opened, next = .continuation opened := by
            cases awaited <;> simp [step] at once <;> exact ⟨_, once.symm⟩
          cases rest with
          | nil => simp at isNext
          | cons second rest =>
              rw [run_cons, Option.bind_eq_some_iff] at ledOn
              obtain ⟨_, twice, _⟩ := ledOn
              obtain ⟨mark, alone, written⟩ := text_eq_mark_of_step twice
              obtain rfl : mark = after := by simpa [written] using isNext
              exact joins_mark_right alone last
      | operator sign =>
          obtain rfl : sign.symbol = last := by simpa [text] using isLast
          exact joins_mark_left (symbol_mem_marks sign) after
      | opening =>
          obtain rfl : '(' = last := by simpa [text] using isLast
          exact joins_mark_left (by decide) after
      | closing =>
          obtain rfl : ')' = last := by simpa [text] using isLast
          exact joins_mark_left (by decide) after
      | name | unknown => simp [step] at once

theorem lexemesIn_withoutBlanks {awaited reached : Awaited} {characters : List Char}
    (led : awaited.run (lexemesIn characters) = some reached) :
    lexemesIn (withoutBlanks characters) = lexemesIn characters := by
  rw [← flatMap_text_lexemesIn]
  exact lexemesIn_flatMap_of_run (fun lexeme => readable_of_mem) led

/-! A literal among the characters of arithmetic has no exponent, and begins with a digit or a sign. -/

theorem isAlpha_eq_false_of_spells {characters : List Char} {lexemes : List Lexeme}
    (spells : Spells characters lexemes) :
    ∀ character ∈ characters, character.isAlpha = false := by
  induction spells with
  | nil => simp
  | blank blank _ ih => exact List.forall_mem_cons.mpr ⟨(blank_standsApart blank).2, ih⟩
  | operator sign _ ih =>
      exact List.forall_mem_cons.mpr ⟨(mark_standsAlone _ (symbol_mem_marks sign)).2.2.1, ih⟩
  | opening _ ih | closing _ ih => exact List.forall_mem_cons.mpr ⟨by decide, ih⟩
  | @number first more rest _ digit goesOn _ _ ih =>
      have plain {character : Char} (number : character.isDigit = true ∨ character = '.') :
          character.isAlpha = false := by
        have code := code_of_continuesNumber ((continuesNumber_iff character).mpr number)
        rw [Bool.eq_false_iff]
        intro letter
        have other := code_of_isAlpha letter
        omega
      refine List.forall_mem_cons.mpr ⟨plain (.inl digit), ?_⟩
      refine List.forall_mem_append.mpr ⟨?_, ih⟩
      exact fun character member => plain (goesOn character member)

def WrittenSign.lexemes : WrittenSign → List Lexeme
  | .absent => []
  | .plus => [.operator .add]
  | .minus => [.operator .subtract]

theorem lexemesIn_signed (sign : WrittenSign) (rest : List Char) :
    lexemesIn (sign.characters ++ rest) = sign.lexemes ++ lexemesIn rest := by
  cases sign with
  | absent => rfl
  | plus => exact lexemesIn_mark (by decide) rest
  | minus => exact lexemesIn_mark (by decide) rest

namespace Numeral

variable {numeral : Numeral}
  (arithmetic : ∀ lexeme ∈ lexemesIn numeral.characters, lexeme.arithmetic = true)

include arithmetic

theorem characters_of_arithmetic :
    numeral.characters = numeral.sign.characters ++ numeral.base := by
  have letters := isAlpha_eq_false_of_spells (spells_lexemesIn arithmetic)
  cases written : numeral.exponent with
  | none => simp [characters, body, written]
  | some exponent =>
      have member : exponent.mark ∈ numeral.characters := by
        simp [characters, body, written, WrittenExponent.characters]
      have letter : exponent.mark.isAlpha = true := by
        rcases exponent.isMark with mark | mark <;> rw [mark] <;> decide
      rw [letters _ member] at letter
      exact absurd letter (by decide)

theorem isNumber_base : IsNumber numeral.base := by
  refine ⟨?_, fun character => numeral.base_mem⟩
  obtain ⟨first, more, whole⟩ := List.exists_cons_of_ne_nil numeral.base_ne_nil
  refine ⟨first, by simp [whole], ?_⟩
  rcases numeral.base_mem (whole ▸ List.mem_cons_self : first ∈ numeral.base) with digit | rfl
  · exact digit
  · have isIn : Lexeme.unknown '.' ∈ lexemesIn numeral.characters := by
      rw [characters_of_arithmetic arithmetic, lexemesIn_signed, whole,
        lexemesIn_first (by decide)]
      exact List.mem_append_right _ List.mem_cons_self
    exact absurd (arithmetic _ isIn) (by decide)

theorem lexemesIn_characters :
    lexemesIn numeral.characters =
      numeral.sign.lexemes ++ [.number (String.ofList numeral.base)] := by
  have base := lexemesIn_of_isNumber (isNumber_base arithmetic)
    (by simp : ∀ next ∈ ([] : List Char).head?, continuesNumber next = false)
  rw [List.append_nil, lexemesIn_nil] at base
  rw [characters_of_arithmetic arithmetic, lexemesIn_signed, base]

end Numeral

theorem exists_primary_of_read? {characters : List Char} {literal : DecimalLiteral}
    (read : read? characters = some literal) {opened : Nat} {more : List Lexeme}
    {reached : Awaited}
    (led : (operand opened).run (lexemesIn characters ++ more) = some reached) :
    ∃ primary : PrimaryPhrase, lexemesIn characters = primary.lexemes ∧
      .opening ∉ primary.lexemes ∧ primary.expression = .number (String.ofList characters) := by
  obtain ⟨numeral, rfl, _⟩ := exists_numeral_of_read? read
  have arithmetic : ∀ lexeme ∈ lexemesIn numeral.characters, lexeme.arithmetic = true :=
    fun lexeme member => arithmetic_of_run led lexeme (List.mem_append_left more member)
  have lexed := numeral.lexemesIn_characters arithmetic
  have written := numeral.characters_of_arithmetic arithmetic
  rw [lexed] at led
  rw [lexed, written]
  cases sign : numeral.sign with
  | absent => exact ⟨.number (String.ofList numeral.base), rfl, by simp [PrimaryPhrase.lexemes], rfl⟩
  | minus =>
      refine ⟨.negative (String.ofList numeral.base), rfl, by simp [PrimaryPhrase.lexemes], ?_⟩
      rw [PrimaryPhrase.expression, String.ofList_append]
      rfl
  | plus => simp [sign, WrittenSign.lexemes, run_cons, step] at led

theorem value_number_of_read? {characters : List Char} {literal : DecimalLiteral}
    (read : read? characters = some literal) :
    (Expression.number (String.ofList characters)).value = .ok (.ofLiteral literal) := by
  rw [← String.toList_ofList (l := characters)] at read
  exact Fraction.ofText_of_read? read

section Accepted

variable {text : String} {expression : Expression}
  (accepted : Expression.parse text = .ok expression)

include accepted

theorem lexemesIn_withoutBlanks_of_parse :
    lexemesIn (withoutBlanks text.toList) = lexemesIn text.toList :=
  lexemesIn_withoutBlanks ((parse_isOk_iff text).mp ⟨expression, accepted⟩)

theorem run_of_parse :
    (operand 0).run (lexemesIn (withoutBlanks text.toList)) = some (.continuation 0) := by
  rw [lexemesIn_withoutBlanks_of_parse accepted]
  exact (parse_isOk_iff text).mp ⟨expression, accepted⟩

theorem expression_of_spelled {sum : SumPhrase}
    (spelled : lexemesIn (withoutBlanks text.toList) = sum.lexemes)
    (plain : .opening ∉ sum.lexemes) : expression = sum.expression := by
  have nests : NestsWithin maximumNesting sum.lexemes := by
    apply NestsWithin.of_count_opening
    rw [List.count_eq_zero.mpr plain]
    exact Nat.zero_le _
  have same := (lexemesIn_withoutBlanks_of_parse accepted).symm.trans spelled
  exact Except.ok.inj (accepted.symm.trans (parse_of_phrase same nests))

theorem evaluate_of_isLiteral {literal : DecimalLiteral}
    (written : Fraction.IsLiteral (withoutBlanks text.toList) literal) :
    expression.evaluate = Fraction.ofText text := by
  have led := run_of_parse accepted
  rw [← List.append_nil (lexemesIn _)] at led
  obtain ⟨primary, spelled, plain, meaning⟩ := exists_primary_of_read? written.2 led
  have same : expression = (SumPhrase.single (.single primary)).expression :=
    expression_of_spelled accepted spelled plain
  rw [Expression.evaluate_eq_value, same, Fraction.ofText_of_isLiteral written]
  change primary.expression.value = _
  rw [meaning, value_number_of_read? written.2]

theorem evaluate_of_isQuotient {above below : DecimalLiteral}
    (written : Fraction.IsQuotient (withoutBlanks text.toList) above below) :
    expression.evaluate = Fraction.ofText text := by
  have divided := Fraction.ofText_of_isQuotient written
  obtain ⟨front, back, whole, _, _, readFront, readBack⟩ := written
  have split : lexemesIn (withoutBlanks text.toList) =
      lexemesIn front ++ .operator .divide :: lexemesIn back := by
    rw [whole, lexemesIn_append_mark (by decide)]
    rfl
  have led := run_of_parse accepted
  rw [split] at led
  obtain ⟨first, firstSpelled, firstPlain, firstMeaning⟩ := exists_primary_of_read? readFront led
  -- After the bar an operand is due again, as it is at the front.
  obtain ⟨middle, _, ledOn⟩ := Option.bind_eq_some_iff.mp (run_append _ _ _ ▸ led)
  obtain ⟨next, once, ledBack⟩ := Option.bind_eq_some_iff.mp (run_cons _ _ _ ▸ ledOn)
  obtain ⟨opened, rfl⟩ : ∃ opened, next = .operand opened := by
    cases middle <;> simp [step] at once
    exact ⟨_, once.symm⟩
  rw [← List.append_nil (lexemesIn back)] at ledBack
  obtain ⟨second, secondSpelled, secondPlain, secondMeaning⟩ :=
    exists_primary_of_read? readBack ledBack
  have same : expression =
      (SumPhrase.single (.chain (.single first) .divide rfl second)).expression := by
    apply expression_of_spelled accepted
    · rw [split, firstSpelled, secondSpelled]
      rfl
    · simp [SumPhrase.lexemes, TermPhrase.lexemes, firstPlain, secondPlain]
  rw [Expression.evaluate_eq_value, same, divided, ← Fraction.divide_ofLiteral]
  simp only [SumPhrase.expression, TermPhrase.expression, firstMeaning, secondMeaning]
  exact Expression.value_of_values (value_number_of_read? readFront) (value_number_of_read? readBack)

end Accepted

/-- Where a text is accepted as an expression and not refused as a fraction text, both readings give
the same fraction, or both divide by zero. -/
theorem evaluate_agrees_ofText {text : String} {expression : Expression}
    (accepted : Expression.parse text = .ok expression)
    (readable : ∀ refused, Fraction.ofText text ≠ .error (.invalidFormat refused)) :
    (∃ value, expression.evaluate = .ok value ∧ Fraction.ofText text = .ok value) ∨
      expression.evaluate = .error .divisionByZero ∧
        Fraction.ofText text = .error .divisionByZero := by
  have same : expression.evaluate = Fraction.ofText text := by
    by_cases literal : ∃ literal, Fraction.IsLiteral (withoutBlanks text.toList) literal
    · obtain ⟨literal, written⟩ := literal
      exact evaluate_of_isLiteral accepted written
    by_cases quotient : ∃ above below, Fraction.IsQuotient (withoutBlanks text.toList) above below
    · obtain ⟨above, below, written⟩ := quotient
      exact evaluate_of_isQuotient accepted written
    · simp only [not_exists] at literal quotient
      exact absurd (Fraction.ofText_of_neither literal quotient) (readable _)
  rw [same]
  cases read : Fraction.ofText text with
  | ok value => exact .inl ⟨value, rfl, rfl⟩
  | error error =>
      rcases Fraction.ofText_error read with rfl | rfl
      · exact .inr ⟨rfl, rfl⟩
      · exact absurd read (readable _)

theorem evaluate_agrees_signed_quotient : ∃ expression,
    Expression.parse " - 2.50 / -3. " = .ok expression ∧
    (∀ refused, Fraction.ofText " - 2.50 / -3. " ≠ .error (.invalidFormat refused)) ∧
    ∃ value, expression.evaluate = .ok value ∧
      Fraction.ofText " - 2.50 / -3. " = .ok value := by
  have accepted : Expression.parse " - 2.50 / -3. " =
      .ok (.binary .divide (.number "-2.50") (.number "-3.")) := by
    decide +kernel
  have read : Fraction.ofText " - 2.50 / -3. " = .ok (Fraction.reduce 5 6 (by decide)) := by
    decide +kernel
  have readable : ∀ refused,
      Fraction.ofText " - 2.50 / -3. " ≠ .error (.invalidFormat refused) := by
    simp [read]
  refine ⟨_, accepted, readable, ?_⟩
  rcases evaluate_agrees_ofText accepted readable with same | ⟨_, divides⟩
  · exact same
  · simp [read] at divides

end FractionCalculator
