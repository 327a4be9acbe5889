import FractionCalculator.Proofs.Evaluation.Accepted

/-!
The text of an expression tells the expression. A number ends where a comma, a parenthesis or the end
follows, and an operator is told from a number by its first letter, so no text has two readings.
-/

namespace FractionCalculator

def Token.IsNumeral (token : Token) : Prop :=
  token.kind = .number ∧
    ∃ digits : String, IsNumber digits.toList ∧ Fraction.IsSigned digits token.text

def inNumeral (character : Char) : Bool :=
  character == '-' || character.isDigit || character == '.'

theorem ends_cons {mark : Char} (outside : inNumeral mark = false) (rest : List Char) :
    ∀ next ∈ (mark :: rest).head?, inNumeral next = false := by
  simpa using outside

namespace Token.IsNumeral

variable {token : Token} (numeral : token.IsNumeral)

include numeral

theorem inNumeral_of_mem : ∀ character ∈ token.text.toList, inNumeral character = true := by
  obtain ⟨_, digits, number, signed⟩ := numeral
  intro character member
  simpa [inNumeral, or_assoc] using signed.mem number character member

theorem exists_first : ∃ first more, token.text.toList = first :: more ∧ inNumeral first = true := by
  have nonempty : token.text.toList ≠ [] := by
    obtain ⟨_, digits, number, same | same⟩ := numeral
    · rw [same]
      exact number.ne_nil
    · simp [same]
  obtain ⟨first, more, whole⟩ := List.exists_cons_of_ne_nil nonempty
  exact ⟨first, more, whole, numeral.inNumeral_of_mem first (by simp [whole])⟩

end Token.IsNumeral

namespace Operator

theorem length_name (operator : Operator) : operator.name.toList.length = 3 := by
  cases operator <;> rfl

theorem name_injective {operator other : Operator} (same : operator.name = other.name) :
    operator = other := by
  revert same
  cases operator <;> cases other <;> decide

theorem exists_first_name (operator : Operator) :
    ∃ first more, operator.name.toList = first :: more ∧ inNumeral first = false := by
  cases operator <;> exact ⟨_, _, rfl, by decide⟩

end Operator

namespace Expression

/-- All leaves are numbers as the parser makes them. -/
def Numeric (expression : Expression) : Prop := ∀ leaf ∈ expression.leaves, leaf.IsNumeral

theorem numeric_literal_iff (token : Token) : (literal token).Numeric ↔ token.IsNumeral := by
  simp [Numeric, leaves]

theorem numeric_binary_iff (operator : Operator) (left right : Expression) :
    (binary operator left right).Numeric ↔ left.Numeric ∧ right.Numeric := by
  simp only [Numeric, leaves, List.forall_mem_append]

theorem toList_text_binary (operator : Operator) (left right : Expression) (rest : List Char) :
    (binary operator left right).text.toList ++ rest =
      operator.name.toList ++ '(' :: (left.text.toList ++ ',' :: ' ' ::
        (right.text.toList ++ ')' :: rest)) := by
  simp [text]

theorem literal_ne_binary {token : Token} (numeral : token.IsNumeral) {operator : Operator}
    {left right : Expression} {rest otherRest : List Char} :
    (literal token).text.toList ++ rest ≠
      (binary operator left right).text.toList ++ otherRest := by
  obtain ⟨first, more, digits, inside⟩ := numeral.exists_first
  obtain ⟨letter, letters, name, outside⟩ := operator.exists_first_name
  intro same
  rw [toList_text_binary, text, digits, name] at same
  obtain ⟨rfl, _⟩ := List.cons.inj same
  rw [inside] at outside
  exact Bool.noConfusion outside

theorem literal_eq_of_append {token other : Token} (numeral : token.IsNumeral)
    (otherNumeral : other.IsNumeral) {rest otherRest : List Char}
    (ends : ∀ next ∈ rest.head?, inNumeral next = false)
    (otherEnds : ∀ next ∈ otherRest.head?, inNumeral next = false)
    (same : token.text.toList ++ rest = other.text.toList ++ otherRest) :
    token = other ∧ rest = otherRest := by
  have digits : token.text.toList = other.text.toList := by
    rw [← takeWhile_append_of_ends numeral.inNumeral_of_mem ends, same,
      takeWhile_append_of_ends otherNumeral.inNumeral_of_mem otherEnds]
  refine ⟨?_, List.append_cancel_left (digits ▸ same)⟩
  obtain ⟨kind, text⟩ := token
  obtain ⟨otherKind, otherText⟩ := other
  obtain rfl : kind = .number := numeral.1
  obtain rfl : otherKind = .number := otherNumeral.1
  rw [Token.mk.injEq]
  exact ⟨rfl, String.toList_injective digits⟩

theorem eq_of_text_append {left right : Expression} (leftNumeric : left.Numeric)
    (rightNumeric : right.Numeric) {rest otherRest : List Char}
    (ends : ∀ next ∈ rest.head?, inNumeral next = false)
    (otherEnds : ∀ next ∈ otherRest.head?, inNumeral next = false)
    (same : left.text.toList ++ rest = right.text.toList ++ otherRest) :
    left = right ∧ rest = otherRest := by
  induction left generalizing right rest otherRest with
  | literal token =>
      rw [numeric_literal_iff] at leftNumeric
      cases right with
      | literal other =>
          rw [numeric_literal_iff] at rightNumeric
          obtain ⟨rfl, sameRest⟩ :=
            literal_eq_of_append leftNumeric rightNumeric ends otherEnds same
          exact ⟨rfl, sameRest⟩
      | binary => exact absurd same (literal_ne_binary leftNumeric)
  | binary operator left right leftIH rightIH =>
      cases right with
      | literal token =>
          rw [numeric_literal_iff] at rightNumeric
          exact absurd same.symm (literal_ne_binary rightNumeric)
      | binary other otherLeft otherRight =>
          rw [numeric_binary_iff] at leftNumeric rightNumeric
          rw [toList_text_binary, toList_text_binary] at same
          have lengths : operator.name.toList.length = other.name.toList.length := by
            rw [operator.length_name, other.length_name]
          obtain ⟨names, behindName⟩ := List.append_inj same lengths
          obtain rfl := Operator.name_injective (String.toList_injective names)
          have comma : inNumeral ',' = false := by decide
          have closing : inNumeral ')' = false := by decide
          obtain ⟨rfl, behindLeft⟩ := leftIH leftNumeric.1 rightNumeric.1
            (ends_cons comma _) (ends_cons comma _) (List.cons.inj behindName).2
          simp only [List.cons.injEq, true_and] at behindLeft
          obtain ⟨rfl, behindRight⟩ := rightIH leftNumeric.2 rightNumeric.2
            (ends_cons closing _) (ends_cons closing _) behindLeft
          exact ⟨rfl, (List.cons.inj behindRight).2⟩

theorem eq_of_render_eq {left right : Expression} (leftNumeric : left.Numeric)
    (rightNumeric : right.Numeric) (same : left.render = right.render) : left = right := by
  rw [render_eq_text, render_eq_text] at same
  have nothing : ∀ next ∈ ([] : List Char).head?, inNumeral next = false := by simp
  exact (eq_of_text_append leftNumeric rightNumeric nothing nothing (by rw [same])).1

end Expression

mutual

theorem SumPhrase.kind_leaf : ∀ phrase : SumPhrase,
    ∀ leaf ∈ phrase.expression.leaves, leaf.kind = .number
  | .single term => TermPhrase.kind_leaf term
  | .chain left _ _ right =>
      List.forall_mem_append.mpr ⟨SumPhrase.kind_leaf left, TermPhrase.kind_leaf right⟩

theorem TermPhrase.kind_leaf : ∀ phrase : TermPhrase,
    ∀ leaf ∈ phrase.expression.leaves, leaf.kind = .number
  | .single primary => PrimaryPhrase.kind_leaf primary
  | .chain left _ _ right =>
      List.forall_mem_append.mpr ⟨TermPhrase.kind_leaf left, PrimaryPhrase.kind_leaf right⟩
  | .beside left inside =>
      List.forall_mem_append.mpr ⟨TermPhrase.kind_leaf left, SumPhrase.kind_leaf inside⟩

theorem PrimaryPhrase.kind_leaf : ∀ phrase : PrimaryPhrase,
    ∀ leaf ∈ phrase.expression.leaves, leaf.kind = .number
  | .number _ | .negative _ => List.forall_mem_singleton.mpr rfl
  | .negated inside => List.forall_mem_cons.mpr ⟨rfl, SumPhrase.kind_leaf inside⟩
  | .grouped inside => SumPhrase.kind_leaf inside

end

namespace Expression

theorem numeric_of_parse {text : String} {expression : Expression}
    (accepted : Expression.parse text = .ok expression) : expression.Numeric := by
  obtain ⟨phrase, spells, _, rfl⟩ := phrase_of_parse accepted
  intro leaf member
  refine ⟨phrase.kind_leaf leaf member, ?_⟩
  rcases phrase.leavesMatch.written leaf member with unit | ⟨digits, isIn, signed⟩
  · exact ⟨"1", IsNumber.singleton rfl, .inr unit⟩
  · exact ⟨digits, isNumber_of_spells spells digits isIn, signed⟩

/-- Expressions whose leaves are numbers have the same text only if they are the same, and the parser
makes no others. -/
theorem same_iff_render_eq :
    (∀ left right : Expression, left.Numeric → right.Numeric →
      (left.same right = true ↔ left.render = right.render)) ∧
    ∀ text expression, Expression.parse text = .ok expression → expression.Numeric := by
  refine ⟨?_, fun text expression => numeric_of_parse⟩
  intro left right leftNumeric rightNumeric
  rw [same_iff_eq]
  exact ⟨congrArg render, eq_of_render_eq leftNumeric rightNumeric⟩

theorem same_iff_render_eq_regrouped :
    let left := binary .subtract (number "1") (binary .subtract (number "-2.") (number "3"))
    let right := binary .subtract (binary .subtract (number "1") (number "-2.")) (number "3")
    left.Numeric ∧ right.Numeric ∧ left.render ≠ right.render ∧ left.same right = false := by
  intro left right
  have one : Token.IsNumeral ⟨.number, "1"⟩ := ⟨rfl, "1", .singleton rfl, .inl rfl⟩
  have two : Token.IsNumeral ⟨.number, "-2."⟩ :=
    ⟨rfl, "2.", ⟨⟨'2', rfl, rfl⟩, by simp⟩, .inr rfl⟩
  have three : Token.IsNumeral ⟨.number, "3"⟩ := ⟨rfl, "3", .singleton rfl, .inl rfl⟩
  have leftNumeric : left.Numeric := by
    simp only [left, numeric_binary_iff, number, numeric_literal_iff]
    exact ⟨one, two, three⟩
  have rightNumeric : right.Numeric := by
    simp only [right, numeric_binary_iff, number, numeric_literal_iff]
    exact ⟨⟨one, two⟩, three⟩
  have different : left.render ≠ right.render := by
    rw [render_eq_text, render_eq_text]
    decide +kernel
  refine ⟨leftNumeric, rightNumeric, different, ?_⟩
  rw [Bool.eq_false_iff, ne_eq, same_iff_render_eq.1 left right leftNumeric rightNumeric]
  exact different

end Expression

end FractionCalculator
