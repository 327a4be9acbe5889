import FractionCalculator.Expression.Worklist

/-!
Evaluating, counting, writing and comparing with a list of what is left to do give what follows from
the shape of an expression: its value, its size, its text, and equality.
-/

namespace FractionCalculator.Expression

def resume : List Pending → Fraction → Except CalculationError Fraction
  | [], value => .ok value
  | .right operator expression :: pending, left => do
      let right ← expression.value
      let combined ← operator.apply left right
      resume pending combined
  | .combine operator left :: pending, right => do
      let combined ← operator.apply left right
      resume pending combined

def Stage.value : Stage → Except CalculationError Fraction
  | .enter expression => expression.value
  | .leave value => .ok value

theorem evaluateFrom_eq_resume (stage : Stage) (pending : List Pending) :
    evaluateFrom stage pending = stage.value >>= resume pending := by
  fun_induction evaluateFrom stage pending with
  | case1 pending token error failed =>
      simp only [Stage.value, Expression.value, failed]
      rfl
  | case2 pending token value read ih =>
      rw [ih]
      simp only [Stage.value, Expression.value, read]
  | case3 pending operator left right ih =>
      rw [ih]
      simp only [Stage.value, Expression.value, bind_assoc]
      rfl
  | case4 value => rfl
  | case5 value operator expression pending ih =>
      rw [ih]
      rfl
  | case6 value operator left pending error failed =>
      change _ = operator.apply left value >>= resume pending
      rw [failed]
      rfl
  | case7 value operator left pending combined applied ih =>
      rw [ih]
      change _ = operator.apply left value >>= resume pending
      rw [applied]
      rfl

theorem evaluate_eq_value (expression : Expression) : expression.evaluate = expression.value := by
  rw [evaluate, evaluateFrom_eq_resume]
  change expression.value >>= (fun value => .ok value) = expression.value
  cases expression.value <;> rfl

theorem countFrom_eq (pending : List Expression) (count : Nat) :
    countFrom pending count = count + total size pending := by
  fun_induction countFrom pending count with
  | case1 count => rfl
  | case2 count token pending ih =>
      rw [ih, total, size]
      omega
  | case3 count operator left right pending ih =>
      rw [ih]
      simp only [total, size]
      omega

theorem nodeCount_eq_size (expression : Expression) : expression.nodeCount = expression.size := by
  rw [nodeCount, countFrom_eq, total, total, Nat.zero_add, Nat.add_zero]

def Piece.text : Piece → String
  | part expression => expression.text
  | mark text => text

theorem renderFrom_eq (pieces : List Piece) (written : String) :
    renderFrom pieces written = written ++ String.join (pieces.map Piece.text) := by
  fun_induction renderFrom pieces written with
  | case1 written => simp
  | case2 written text pieces ih | case3 written token pieces ih =>
      rw [ih, List.map_cons, String.join_cons, String.append_assoc]
      rfl
  | case4 written operator left right pieces ih =>
      rw [ih]
      simp only [List.map_cons, String.join_cons, Piece.text, text, String.append_assoc]

theorem render_eq_text (expression : Expression) : expression.render = expression.text := by
  rw [render, renderFrom_eq]
  simp [Piece.text]

theorem sameFrom_iff (pairs : List (Expression × Expression)) :
    sameFrom pairs = true ↔ ∀ pair ∈ pairs, pair.1 = pair.2 := by
  fun_induction sameFrom pairs with
  | case1 => simp
  | case2 left right pairs ih => simp [ih]
  | case3 operator left right other otherLeft otherRight pairs ih =>
      simp only [Bool.and_eq_true, beq_iff_eq, ih, List.forall_mem_cons, binary.injEq]
      constructor
      · rintro ⟨sameOperator, sameRight, sameLeft, later⟩
        exact ⟨⟨sameOperator, sameLeft, sameRight⟩, later⟩
      · rintro ⟨⟨sameOperator, sameLeft, sameRight⟩, later⟩
        exact ⟨sameOperator, sameRight, sameLeft, later⟩
  | case4 | case5 => simp

theorem same_iff_eq (left right : Expression) : left.same right = true ↔ left = right := by
  rw [same, sameFrom_iff, List.forall_mem_singleton]

/-- The same shape, the same operator at each node, and leaf tokens of the same kind and text. -/
def Alike : Expression → Expression → Prop
  | literal token, literal other => token.kind = other.kind ∧ token.text = other.text
  | binary operator left right, binary other otherLeft otherRight =>
      operator = other ∧ left.Alike otherLeft ∧ right.Alike otherRight
  | literal _, binary .. | binary .., literal _ => False

theorem alike_iff_eq (left right : Expression) : left.Alike right ↔ left = right := by
  induction left generalizing right with
  | literal token =>
      cases right with
      | literal other =>
          obtain ⟨kind, text⟩ := token
          obtain ⟨otherKind, otherText⟩ := other
          simp [Alike]
      | binary => simp [Alike]
  | binary operator left right leftIH rightIH =>
      cases right with
      | literal => simp [Alike]
      | binary other otherLeft otherRight => simp [Alike, leftIH, rightIH]

/-- Comparing, counting and writing follow the structure of every expression, whatever its tokens and
however deep it is. -/
theorem traversals_structural :
    (∀ left right : Expression, left.same right = true ↔ left.Alike right) ∧
    (∀ token, (literal token).nodeCount = 1) ∧
    (∀ operator left right,
      (binary operator left right).nodeCount = 1 + left.nodeCount + right.nodeCount) ∧
    (∀ token, (literal token).render = token.text) ∧
    (∀ operator left right, (binary operator left right).render =
      operator.name ++ "(" ++ left.render ++ ", " ++ right.render ++ ")") ∧
    Operator.all.map Operator.name = ["add", "sub", "mul", "div"] := by
  refine ⟨?_, ?_, ?_, ?_, ?_, rfl⟩
  · intro left right
    rw [same_iff_eq, alike_iff_eq]
  · intro token
    rw [nodeCount_eq_size, size]
  · intro operator left right
    simp only [nodeCount_eq_size, size]
  · intro token
    rw [render_eq_text, text]
  · intro operator left right
    simp only [render_eq_text, text]

end FractionCalculator.Expression
