import FractionCalculator.Expression.Basic
import FractionCalculator.Fraction.Text

/-!
Evaluation, size, text and equality of expressions of any depth. A sum of many terms is as deep as it
is long, so what is left to do is kept in a list.
-/

namespace FractionCalculator.Expression

def total {Item : Type} (work : Item → Nat) : List Item → Nat
  | [] => 0
  | item :: rest => work item + total work rest

inductive Pending
  | right (operator : Operator) (expression : Expression)
  | combine (operator : Operator) (left : Fraction)

inductive Stage
  | enter (expression : Expression)
  | leave (value : Fraction)

def Pending.work : Pending → Nat
  | right _ expression => 2 * expression.size + 1
  | combine _ _ => 1

def Stage.work : Stage → Nat
  | enter expression => 2 * expression.size
  | leave _ => 1

def evaluateFrom (stage : Stage) (pending : List Pending) : Except CalculationError Fraction :=
  match stage, pending with
  | .enter (.literal token), pending =>
      match Fraction.ofText token.text with
      | .error error => .error error
      | .ok value => evaluateFrom (.leave value) pending
  | .enter (.binary operator left right), pending =>
      evaluateFrom (.enter left) (.right operator right :: pending)
  | .leave value, [] => .ok value
  | .leave value, .right operator expression :: pending =>
      evaluateFrom (.enter expression) (.combine operator value :: pending)
  | .leave value, .combine operator left :: pending =>
      match operator.apply left value with
      | .error error => .error error
      | .ok value => evaluateFrom (.leave value) pending
termination_by stage.work + total Pending.work pending
decreasing_by all_goals simp [Stage.work, Pending.work, size, total] <;> omega

def evaluate (expression : Expression) : Except CalculationError Fraction :=
  evaluateFrom (.enter expression) []

def evaluateInteger (expression : Expression) : Except CalculationError Int :=
  expression.evaluate.map Fraction.integerPart

def evaluateDecimal (expression : Expression) (places : Nat) : Except CalculationError String :=
  expression.evaluate.map fun value => value.decimal places

def countFrom (pending : List Expression) (count : Nat) : Nat :=
  match pending with
  | [] => count
  | .literal _ :: pending => countFrom pending (count + 1)
  | .binary _ left right :: pending => countFrom (right :: left :: pending) (count + 1)
termination_by total size pending
decreasing_by all_goals simp [size, total] <;> omega

def nodeCount (expression : Expression) : Nat := countFrom [expression] 0

inductive Piece
  | part (expression : Expression)
  | mark (text : String)

def Piece.work : Piece → Nat
  | part expression => 4 * expression.size
  | mark _ => 1

def renderFrom (pieces : List Piece) (written : String) : String :=
  match pieces with
  | [] => written
  | .mark text :: pieces => renderFrom pieces (written ++ text)
  | .part (.literal token) :: pieces => renderFrom pieces (written ++ token.text)
  | .part (.binary operator left right) :: pieces =>
      renderFrom (.part left :: .mark ", " :: .part right :: .mark ")" :: pieces)
        (written ++ operator.name ++ "(")
termination_by total Piece.work pieces
decreasing_by all_goals simp [Piece.work, size, total] <;> omega

def render (expression : Expression) : String := renderFrom [.part expression] ""

def sameFrom (pairs : List (Expression × Expression)) : Bool :=
  match pairs with
  | [] => true
  | (.literal left, .literal right) :: pairs => left == right && sameFrom pairs
  | (.binary operator left right, .binary other otherLeft otherRight) :: pairs =>
      operator == other && sameFrom ((right, otherRight) :: (left, otherLeft) :: pairs)
  | (.literal _, .binary ..) :: _ | (.binary .., .literal _) :: _ => false
termination_by total (fun pair => pair.1.size) pairs
decreasing_by all_goals simp [size, total] <;> omega

def same (left right : Expression) : Bool := sameFrom [(left, right)]

instance : ToString Expression := ⟨render⟩

end FractionCalculator.Expression
