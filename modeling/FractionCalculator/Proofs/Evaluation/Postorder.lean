import FractionCalculator.Proofs.Evaluation.Failure

/-!
The loop with its list of what is left to do and the recursion on the shape of an expression give the
same result. The loop ends after two turns for each part, and where it ends with an error, this is the
fault of the first faulty part, the sides of an operator coming before the operator.
-/

namespace FractionCalculator

instance (operator : Operator) (right : Fraction) : Decidable (operator.DividesByZero right) :=
  inferInstanceAs (Decidable (operator = .divide ∧ right.numerator = 0))

def failure? {Value : Type} : Except CalculationError Value → Option CalculationError
  | .error error => some error
  | .ok _ => none

theorem failure?_eq_some_iff {Value : Type} {result : Except CalculationError Value}
    {error : CalculationError} : failure? result = some error ↔ result = .error error := by
  cases result <;> simp [failure?]

theorem Operator.failure?_apply (operator : Operator) (left right : Fraction) :
    failure? (operator.apply left right) =
      if operator.DividesByZero right then some .divisionByZero else none := by
  by_cases divides : operator.DividesByZero right
  · rw [if_pos divides, apply_of_dividesByZero divides]
    rfl
  · obtain ⟨result, applied⟩ := apply_of_not_dividesByZero divides left
    rw [if_neg divides, applied]
    rfl

namespace Expression

def postorder : Expression → List Expression
  | literal token => [literal token]
  | binary operator left right =>
      left.postorder ++ (right.postorder ++ [binary operator left right])

/-- What is wrong with a part itself: its text is no number, or it divides by a zero. -/
def fault? : Expression → Option CalculationError
  | literal token => failure? (Fraction.ofText token.text)
  | binary operator _ right =>
      match right.value with
      | .error _ => none
      | .ok value => if operator.DividesByZero value then some .divisionByZero else none

theorem findSome?_postorder (expression : Expression) :
    expression.postorder.findSome? fault? = failure? expression.value := by
  induction expression with
  | literal token => simp [postorder, fault?, value]
  | binary operator left right leftIH rightIH =>
      rw [postorder, List.findSome?_append, List.findSome?_append, leftIH, rightIH]
      cases leftRead : left.value with
      | error error =>
          rw [value_of_left_error leftRead]
          rfl
      | ok leftValue =>
          cases rightRead : right.value with
          | error error =>
              rw [value_of_right_error leftRead rightRead]
              rfl
          | ok rightValue =>
              rw [value_of_values leftRead rightRead, Operator.failure?_apply]
              simp [failure?, fault?, rightRead]

def turn : Stage → List Pending → Except CalculationError Fraction ⊕ Stage × List Pending
  | .enter (.literal token), pending =>
      match Fraction.ofText token.text with
      | .error error => .inl (.error error)
      | .ok value => .inr (.leave value, pending)
  | .enter (.binary operator left right), pending =>
      .inr (.enter left, .right operator right :: pending)
  | .leave value, [] => .inl (.ok value)
  | .leave value, .right operator expression :: pending =>
      .inr (.enter expression, .combine operator value :: pending)
  | .leave value, .combine operator left :: pending =>
      match operator.apply left value with
      | .error error => .inl (.error error)
      | .ok value => .inr (.leave value, pending)

def resultWithin : Nat → Stage → List Pending → Option (Except CalculationError Fraction)
  | 0, _, _ => none
  | count + 1, stage, pending =>
      match turn stage pending with
      | .inl result => some result
      | .inr (next, remaining) => resultWithin count next remaining

theorem evaluateFrom_turn (stage : Stage) (pending : List Pending) :
    turn stage pending = .inl (evaluateFrom stage pending) ∨
      ∃ next remaining, turn stage pending = .inr (next, remaining) ∧
        evaluateFrom stage pending = evaluateFrom next remaining ∧
        next.work + total Pending.work remaining + 1 = stage.work + total Pending.work pending := by
  fun_cases turn stage pending with
  | case1 pending token error failed =>
      rw [evaluateFrom, failed]
      exact .inl rfl
  | case2 pending token value read =>
      refine .inr ⟨_, _, rfl, ?_, ?_⟩
      · rw [evaluateFrom, read]
      · simp only [Stage.work, size]
        omega
  | case3 pending operator left right =>
      refine .inr ⟨_, _, rfl, ?_, ?_⟩
      · rw [evaluateFrom]
      · simp only [Stage.work, Pending.work, size, total]
        omega
  | case4 value =>
      rw [evaluateFrom]
      exact .inl rfl
  | case5 value operator expression pending =>
      refine .inr ⟨_, _, rfl, ?_, ?_⟩
      · rw [evaluateFrom]
      · simp only [Stage.work, Pending.work, total]
        omega
  | case6 value operator left pending error failed =>
      rw [evaluateFrom, failed]
      exact .inl rfl
  | case7 value operator left pending combined applied =>
      refine .inr ⟨_, _, rfl, ?_, ?_⟩
      · rw [evaluateFrom, applied]
      · simp only [Stage.work, Pending.work, total]
        omega

theorem size_pos (expression : Expression) : 0 < expression.size := by
  cases expression <;> simp only [size] <;> omega

theorem Stage.work_pos (stage : Stage) : 0 < stage.work := by
  cases stage with
  | enter expression => exact Nat.mul_pos (by decide) expression.size_pos
  | leave value => exact Nat.one_pos

theorem resultWithin_of_work_le {count : Nat} {stage : Stage} {pending : List Pending}
    (enough : stage.work + total Pending.work pending ≤ count) :
    resultWithin count stage pending = some (evaluateFrom stage pending) := by
  induction count generalizing stage pending with
  | zero =>
      -- A stage has work of its own, so no turn at all is never enough.
      have work := stage.work_pos
      omega
  | succ count ih =>
      rw [resultWithin]
      rcases evaluateFrom_turn stage pending with ended | ⟨next, remaining, turned, same, work⟩
      · rw [ended]
      · rw [turned, same]
        exact ih (by omega)

/-- Evaluating gives the value that the shape of the expression gives, within two turns of the loop for
each part. An error is the fault of the first faulty part, each part coming after its sides. -/
theorem evaluate_in_postorder (expression : Expression) :
    expression.evaluate = expression.value ∧
      (∀ error, expression.evaluate = .error error ↔
        expression.postorder.findSome? fault? = some error) ∧
      (∀ error, expression.evaluate = .error error → error = .divisionByZero ∨
        ∃ leaf ∈ expression.leaves, error = .invalidFormat (trimBlanks leaf.text)) ∧
      resultWithin (2 * expression.size) (.enter expression) [] = some expression.evaluate := by
  have same := expression.evaluate_eq_value
  refine ⟨same, ?_, ?_, resultWithin_of_work_le (Nat.le_refl _)⟩
  · intro error
    rw [same, findSome?_postorder, failure?_eq_some_iff]
  · intro error failed
    exact value_error_kind (same ▸ failed)

def faultyThroughout : Expression :=
  binary .add (binary .divide (number " x y ") (number "0")) (number "?")

theorem evaluate_faultyThroughout :
    faultyThroughout.evaluate = .error (.invalidFormat "x y") ∧
      faultyThroughout.postorder.findSome? fault? = some (.invalidFormat "x y") ∧
      ∃ leaf ∈ faultyThroughout.leaves,
        CalculationError.invalidFormat "x y" = .invalidFormat (trimBlanks leaf.text) := by
  obtain ⟨same, first, kinds, _⟩ := evaluate_in_postorder faultyThroughout
  have failed : faultyThroughout.evaluate = .error (.invalidFormat "x y") := by
    rw [same]
    rfl
  refine ⟨failed, (first _).mp failed, ?_⟩
  rcases kinds _ failed with division | unread
  · exact CalculationError.noConfusion division
  · exact unread

end Expression

end FractionCalculator
