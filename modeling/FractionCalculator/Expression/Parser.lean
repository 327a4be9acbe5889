import FractionCalculator.Expression.Basic
import FractionCalculator.Expression.Refusal
import FractionCalculator.Lexeme.Cursor

/-!
From lexemes to an expression, in three levels: sums of terms, terms of primaries, and primaries. Both
chains group to the left. How the inside of a parenthesis is read is a parameter of all three levels,
and `nested` gives it room for so many more open parentheses.
-/

namespace FractionCalculator

structure Parsed where
  expression : Expression
  rest : List Located

/-- A way to read on after an opening parenthesis that stands at `start`, the closing one included. -/
structure Grouping where
  read : (start : Nat) → List Located → Except Refusal Parsed
  advances : ∀ {start lexemes parsed}, read start lexemes = .ok parsed →
    parsed.rest.length < lexemes.length

namespace Expression

def negated (grouping : Grouping) : List Located → Except Refusal Parsed
  | [] => .error (.atEnd .operand)
  | located :: rest =>
      match located.lexeme with
      | .number digits => .ok ⟨number ("-" ++ digits), rest⟩
      | .opening =>
          match grouping.read located.start rest with
          | .error refusal => .error refusal
          | .ok inside => .ok ⟨binary .multiply (number "-1") inside.expression, inside.rest⟩
      | .closing => .error (.onReading .opening located)
      | .operator _ | .name _ | .unknown _ => .error (.onReading .operand located)

def primary (grouping : Grouping) : List Located → Except Refusal Parsed
  | [] => .error (.atEnd .operand)
  | located :: rest =>
      match located.lexeme with
      | .number digits => .ok ⟨number digits, rest⟩
      | .opening => grouping.read located.start rest
      | .operator .subtract => negated grouping rest
      | .operator _ | .unknown _ => .error (.onReading .operand located)
      | .name _ => .error (.onReading .operandWithoutFunctions located)
      | .closing => .error (.onReading .opening located)

theorem negated_advances {grouping : Grouping} {lexemes : List Located} {parsed : Parsed}
    (found : negated grouping lexemes = .ok parsed) : parsed.rest.length < lexemes.length := by
  unfold negated at found
  split at found
  · simp at found
  split at found
  · cases found
    simp
  · split at found
    · simp at found
    · rename_i inside
      have fewer := grouping.advances inside
      cases found
      simp only [List.length_cons]
      omega
  · simp at found
  all_goals simp at found

theorem primary_advances {grouping : Grouping} {lexemes : List Located} {parsed : Parsed}
    (found : primary grouping lexemes = .ok parsed) : parsed.rest.length < lexemes.length := by
  unfold primary at found
  split at found
  · simp at found
  split at found
  · cases found
    simp
  · have fewer := grouping.advances found
    simp only [List.length_cons]
    omega
  · have fewer := negated_advances found
    simp only [List.length_cons]
    omega
  all_goals simp at found

/-- Continues a term: multiplies and divides until a lexeme that ends terms. An opening parenthesis
right after an operand multiplies. -/
def termFrom (grouping : Grouping) (left : Expression) (lexemes : List Located) :
    Except Refusal Parsed :=
  match lexemes with
  | [] => .ok ⟨left, []⟩
  | located :: rest =>
      match located.lexeme with
      | .operator .add | .operator .subtract | .closing => .ok ⟨left, located :: rest⟩
      | .operator operator =>
          match _ : primary grouping rest with
          | .error refusal => .error refusal
          | .ok right => termFrom grouping (binary operator left right.expression) right.rest
      | .opening =>
          match _ : grouping.read located.start rest with
          | .error refusal => .error refusal
          | .ok right => termFrom grouping (binary .multiply left right.expression) right.rest
      | .number _ | .name _ | .unknown _ => .error (.onSight .operatorOrParenthesis located)
termination_by lexemes.length
decreasing_by
  · have fewer := primary_advances (by assumption)
    simp only [List.length_cons]
    omega
  · have fewer := grouping.advances (by assumption)
    simp only [List.length_cons]
    omega

def term (grouping : Grouping) (lexemes : List Located) : Except Refusal Parsed :=
  match primary grouping lexemes with
  | .error refusal => .error refusal
  | .ok first => termFrom grouping first.expression first.rest

theorem termFrom_advances {grouping : Grouping} {left : Expression} {lexemes : List Located}
    {parsed : Parsed} (found : termFrom grouping left lexemes = .ok parsed) :
    parsed.rest.length ≤ lexemes.length := by
  fun_induction termFrom grouping left lexemes with
  | case1 => cases found; simp
  | case2 => cases found; simp
  | case3 => cases found; simp
  | case4 => cases found; simp
  | case5 => simp at found
  | case6 left located rest operator _ _ _ right read ih =>
      have fewer := primary_advances read
      have later := ih found
      simp only [List.length_cons]
      omega
  | case7 => simp at found
  | case8 left located rest _ right read ih =>
      have fewer := grouping.advances read
      have later := ih found
      simp only [List.length_cons]
      omega
  | case9 => simp at found
  | case10 => simp at found
  | case11 => simp at found

theorem term_advances {grouping : Grouping} {lexemes : List Located} {parsed : Parsed}
    (found : term grouping lexemes = .ok parsed) : parsed.rest.length < lexemes.length := by
  unfold term at found
  split at found
  · simp at found
  · rename_i read
    have fewer := primary_advances read
    have later := termFrom_advances found
    omega

def sumFrom (grouping : Grouping) (left : Expression) (lexemes : List Located) :
    Except Refusal Parsed :=
  match lexemes with
  | [] => .ok ⟨left, []⟩
  | located :: rest =>
      match located.lexeme with
      | .operator .add =>
          match _ : term grouping rest with
          | .error refusal => .error refusal
          | .ok right => sumFrom grouping (binary .add left right.expression) right.rest
      | .operator .subtract =>
          match _ : term grouping rest with
          | .error refusal => .error refusal
          | .ok right => sumFrom grouping (binary .subtract left right.expression) right.rest
      | _ => .ok ⟨left, located :: rest⟩
termination_by lexemes.length
decreasing_by
  all_goals
    have fewer := term_advances (by assumption)
    simp only [List.length_cons]
    omega

def sum (grouping : Grouping) (lexemes : List Located) : Except Refusal Parsed :=
  match term grouping lexemes with
  | .error refusal => .error refusal
  | .ok first => sumFrom grouping first.expression first.rest

theorem sumFrom_advances {grouping : Grouping} {left : Expression} {lexemes : List Located}
    {parsed : Parsed} (found : sumFrom grouping left lexemes = .ok parsed) :
    parsed.rest.length ≤ lexemes.length := by
  fun_induction sumFrom grouping left lexemes with
  | case1 => cases found; simp
  | case2 => simp at found
  | case3 left located rest _ right read ih =>
      have fewer := term_advances read
      have later := ih found
      simp only [List.length_cons]
      omega
  | case4 => simp at found
  | case5 left located rest _ right read ih =>
      have fewer := term_advances read
      have later := ih found
      simp only [List.length_cons]
      omega
  | case6 => cases found; simp

theorem sum_advances {grouping : Grouping} {lexemes : List Located} {parsed : Parsed}
    (found : sum grouping lexemes = .ok parsed) : parsed.rest.length < lexemes.length := by
  unfold sum at found
  split at found
  · simp at found
  · rename_i read
    have fewer := term_advances read
    have later := sumFrom_advances found
    omega

def enclosed (grouping : Grouping) (lexemes : List Located) : Except Refusal Parsed :=
  match sum grouping lexemes with
  | .error refusal => .error refusal
  | .ok inside =>
      match inside.rest with
      | [] => .error (.atEnd .closing)
      | located :: rest =>
          match located.lexeme with
          | .closing => .ok ⟨inside.expression, rest⟩
          | _ => .error (.onSight .closing located)

theorem enclosed_advances {grouping : Grouping} {lexemes : List Located} {parsed : Parsed}
    (found : enclosed grouping lexemes = .ok parsed) : parsed.rest.length < lexemes.length := by
  unfold enclosed at found
  split at found
  · simp at found
  · rename_i read
    have fewer := sum_advances read
    split at found
    · simp at found
    · rename_i rest
      split at found
      · cases found
        simp only [rest, List.length_cons] at fewer ⊢
        omega
      · simp at found

def nested : Nat → Grouping
  | 0 =>
      { read := fun start _ => .error (.onReading .shallowerNesting ⟨start, .opening⟩)
        advances := by intro _ _ _ found; simp at found }
  | room + 1 =>
      { read := fun _ lexemes => enclosed (nested room) lexemes
        advances := enclosed_advances }

def ofLexemes (lexemes : List Located) : Except Refusal Expression :=
  match sum (nested maximumNesting) lexemes with
  | .error refusal => .error refusal
  | .ok parsed =>
      match parsed.rest with
      | [] => .ok parsed.expression
      | located :: _ => .error (.onSight .operatorOrEnd located)

def parse (text : String) : Except Malformation Expression :=
  (ofLexemes (lexemesOf text)).mapError fun refusal => refusal.malformation text

end Expression

end FractionCalculator
