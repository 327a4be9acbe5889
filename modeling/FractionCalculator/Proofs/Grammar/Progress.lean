import FractionCalculator.Expression.Parser
import FractionCalculator.Proofs.Grammar.Phrase

/-!
What may come next in an expression depends on very little: on whether an operand is due, and on how
many parentheses are open. The parser gets stuck exactly where this little is enough to say so.
-/

namespace FractionCalculator

/-- What is due after some lexemes: an operand, an operand without a minus sign, or what continues an
operand; and how many parentheses are open. -/
inductive Awaited
  | operand (opened : Nat)
  | magnitude (opened : Nat)
  | continuation (opened : Nat)
deriving DecidableEq, Repr

namespace Awaited

def opened : Awaited → Nat
  | .operand opened | .magnitude opened | .continuation opened => opened

def step (awaited : Awaited) : Lexeme → Option Awaited
  | .number _ =>
      match awaited with
      | .operand opened | .magnitude opened => some (.continuation opened)
      | .continuation _ => none
  | .operator sign =>
      match awaited with
      | .operand opened => if sign = .subtract then some (.magnitude opened) else none
      | .magnitude _ => none
      | .continuation opened => some (.operand opened)
  | .opening =>
      if awaited.opened < maximumNesting then some (.operand (awaited.opened + 1)) else none
  | .closing =>
      match awaited with
      | .continuation (opened + 1) => some (.continuation opened)
      | _ => none
  | .name _ | .unknown _ => none

def run (awaited : Awaited) (lexemes : List Lexeme) : Option Awaited := lexemes.foldlM step awaited

@[simp] theorem run_nil (awaited : Awaited) : awaited.run [] = some awaited :=
  rfl

theorem run_cons (awaited : Awaited) (lexeme : Lexeme) (rest : List Lexeme) :
    awaited.run (lexeme :: rest) = (awaited.step lexeme).bind fun next => next.run rest := by
  simp [run, List.foldlM_cons]

theorem run_append (awaited : Awaited) (before after : List Lexeme) :
    awaited.run (before ++ after) = (awaited.run before).bind fun reached => reached.run after := by
  simp [run, List.foldlM_append]

theorem run_append_of_some {awaited reached : Awaited} {before : List Lexeme}
    (led : awaited.run before = some reached) (after : List Lexeme) :
    awaited.run (before ++ after) = reached.run after := by
  rw [run_append, led, Option.bind_some]

end Awaited

open Awaited

/-- A refusal at a lexeme means that the lexemes before it lead somewhere, and it leads nowhere from
there. A refusal at the end means that the lexemes lead somewhere, but not to the end of an
expression. -/
def RefusedFrom (awaited : Awaited) (lexemes : List Located) (refusal : Refusal) : Prop :=
  match refusal.found with
  | none => ∃ reached, awaited.run (lexemes.map Located.lexeme) = some reached ∧
      reached ≠ .continuation 0
  | some (_, position) => ∃ before located after reached, lexemes = before ++ located :: after ∧
      awaited.run (before.map Located.lexeme) = some reached ∧
      reached.step located.lexeme = none ∧ located.start = position

def FollowedFrom (awaited : Awaited) (opened : Nat) (lexemes : List Located) :
    Except Refusal Parsed → Prop
  | .ok parsed => ∃ before, lexemes = before ++ parsed.rest ∧
      awaited.run (before.map Located.lexeme) = some (.continuation opened)
  | .error refusal => RefusedFrom awaited lexemes refusal

theorem RefusedFrom.prepend {awaited reached : Awaited} {before lexemes : List Located}
    {refusal : Refusal} (led : awaited.run (before.map Located.lexeme) = some reached)
    (refused : RefusedFrom reached lexemes refusal) :
    RefusedFrom awaited (before ++ lexemes) refusal := by
  unfold RefusedFrom at refused ⊢
  split at refused
  · rw [List.map_append, run_append_of_some led]
    exact refused
  · obtain ⟨middle, located, after, last, rfl, ledOn, stuck, place⟩ := refused
    refine ⟨before ++ middle, located, after, last, by simp, ?_, stuck, place⟩
    rw [List.map_append, run_append_of_some led]
    exact ledOn

theorem FollowedFrom.prepend {awaited reached : Awaited} {opened : Nat}
    {before lexemes : List Located} {result : Except Refusal Parsed}
    (led : awaited.run (before.map Located.lexeme) = some reached)
    (followed : FollowedFrom reached opened lexemes result) :
    FollowedFrom awaited opened (before ++ lexemes) result := by
  cases result with
  | error refusal => exact RefusedFrom.prepend led followed
  | ok parsed =>
      obtain ⟨middle, rfl, ledOn⟩ := followed
      refine ⟨before ++ middle, by simp, ?_⟩
      rw [List.map_append, run_append_of_some led]
      exact ledOn

theorem FollowedFrom.andThen {awaited : Awaited} {opened : Nat} {lexemes : List Located}
    {parsed : Parsed} {result : Except Refusal Parsed}
    (first : FollowedFrom awaited opened lexemes (.ok parsed))
    (second : FollowedFrom (.continuation opened) opened parsed.rest result) :
    FollowedFrom awaited opened lexemes result := by
  obtain ⟨before, whole, led⟩ := first
  rw [whole]
  exact second.prepend led

theorem FollowedFrom.step {awaited next : Awaited} {opened : Nat} {located : Located}
    {lexemes : List Located} {result : Except Refusal Parsed}
    (led : awaited.step located.lexeme = some next)
    (followed : FollowedFrom next opened lexemes result) :
    FollowedFrom awaited opened (located :: lexemes) result := by
  have once : awaited.run ([located].map Located.lexeme) = some next := by
    simp [run_cons, led]
  exact followed.prepend once

theorem refusedFrom_onReading {awaited : Awaited} {located : Located}
    (stuck : awaited.step located.lexeme = none) (expected : Expectation) (rest : List Located) :
    RefusedFrom awaited (located :: rest) (.onReading expected located) :=
  ⟨[], located, rest, awaited, rfl, rfl, stuck, rfl⟩

theorem refusedFrom_onSight {awaited : Awaited} {located : Located}
    (stuck : awaited.step located.lexeme = none) (expected : Expectation) (rest : List Located) :
    RefusedFrom awaited (located :: rest) (.onSight expected located) :=
  ⟨[], located, rest, awaited, rfl, rfl, stuck, rfl⟩

theorem refusedFrom_atEnd {awaited : Awaited} (unfinished : awaited ≠ .continuation 0)
    (expected : Expectation) : RefusedFrom awaited [] (.atEnd expected) :=
  ⟨awaited, rfl, unfinished⟩

theorem followedFrom_done {opened : Nat} {lexemes : List Located} {expression : Expression} :
    FollowedFrom (.continuation opened) opened lexemes (.ok ⟨expression, lexemes⟩) :=
  ⟨[], rfl, rfl⟩

def Grouping.Follows (grouping : Grouping) (opened : Nat) : Prop :=
  ∀ (awaited : Awaited) (start : Nat) (lexemes : List Located), awaited.opened = opened →
    FollowedFrom awaited opened (⟨start, .opening⟩ :: lexemes) (grouping.read start lexemes)

namespace Expression

variable {grouping : Grouping} {opened : Nat}

theorem negated_follows (follows : grouping.Follows opened) (lexemes : List Located) :
    FollowedFrom (.magnitude opened) opened lexemes (negated grouping lexemes) := by
  cases lexemes with
  | nil => exact refusedFrom_atEnd (by simp) .operand
  | cons located rest =>
      obtain ⟨start, lexeme⟩ := located
      cases lexeme with
      | number digits => exact followedFrom_done.step rfl
      | opening =>
          have inside := follows (.magnitude opened) start rest rfl
          simp only [negated]
          cases read : grouping.read start rest with
          | error refusal => rwa [read] at inside
          | ok parsed => rwa [read] at inside
      | closing => exact refusedFrom_onReading rfl .opening rest
      | operator sign => exact refusedFrom_onReading rfl .operand rest
      | name letters => exact refusedFrom_onReading rfl .operand rest
      | unknown character => exact refusedFrom_onReading rfl .operand rest

theorem primary_follows (follows : grouping.Follows opened) (lexemes : List Located) :
    FollowedFrom (.operand opened) opened lexemes (primary grouping lexemes) := by
  cases lexemes with
  | nil => exact refusedFrom_atEnd (by simp) .operand
  | cons located rest =>
      obtain ⟨start, lexeme⟩ := located
      cases lexeme with
      | number digits => exact followedFrom_done.step rfl
      | opening => exact follows (.operand opened) start rest rfl
      | operator sign =>
          cases sign with
          | subtract => exact (negated_follows follows rest).step rfl
          | add => exact refusedFrom_onReading rfl .operand rest
          | multiply => exact refusedFrom_onReading rfl .operand rest
          | divide => exact refusedFrom_onReading rfl .operand rest
      | closing => exact refusedFrom_onReading rfl .opening rest
      | name letters => exact refusedFrom_onReading rfl .operandWithoutFunctions rest
      | unknown character => exact refusedFrom_onReading rfl .operand rest

theorem termFrom_follows (follows : grouping.Follows opened) (left : Expression)
    (lexemes : List Located) :
    FollowedFrom (.continuation opened) opened lexemes (termFrom grouping left lexemes) := by
  fun_induction termFrom grouping left lexemes with
  | case1 => exact followedFrom_done
  | case2 => exact followedFrom_done
  | case3 => exact followedFrom_done
  | case4 => exact followedFrom_done
  | case5 left located rest operator _ _ isOperator refusal read =>
      have right := primary_follows follows rest
      rw [read] at right
      exact FollowedFrom.step (by rw [isOperator]; rfl) right
  | case6 left located rest operator _ _ isOperator right read ih =>
      have operand := primary_follows follows rest
      rw [read] at operand
      exact FollowedFrom.step (by rw [isOperator]; rfl) (FollowedFrom.andThen operand ih)
  | case7 left located rest isOpening refusal read =>
      have right := follows (.continuation opened) located.start rest rfl
      rw [read, ← isOpening] at right
      exact right
  | case8 left located rest isOpening right read ih =>
      have operand := follows (.continuation opened) located.start rest rfl
      rw [read, ← isOpening] at operand
      exact FollowedFrom.andThen operand ih
  | case9 left located rest digits isNumber =>
      exact refusedFrom_onSight (by rw [isNumber]; rfl) .operatorOrParenthesis rest
  | case10 left located rest letters isName =>
      exact refusedFrom_onSight (by rw [isName]; rfl) .operatorOrParenthesis rest
  | case11 left located rest character isUnknown =>
      exact refusedFrom_onSight (by rw [isUnknown]; rfl) .operatorOrParenthesis rest

theorem term_follows (follows : grouping.Follows opened) (lexemes : List Located) :
    FollowedFrom (.operand opened) opened lexemes (term grouping lexemes) := by
  have first := primary_follows follows lexemes
  unfold term
  cases read : primary grouping lexemes with
  | error refusal => rwa [read] at first
  | ok parsed =>
      rw [read] at first
      exact FollowedFrom.andThen first (termFrom_follows follows parsed.expression parsed.rest)

theorem sumFrom_follows (follows : grouping.Follows opened) (left : Expression)
    (lexemes : List Located) :
    FollowedFrom (.continuation opened) opened lexemes (sumFrom grouping left lexemes) := by
  fun_induction sumFrom grouping left lexemes with
  | case1 => exact followedFrom_done
  | case2 left located rest isOperator refusal read =>
      have right := term_follows follows rest
      rw [read] at right
      exact FollowedFrom.step (by rw [isOperator]; rfl) right
  | case3 left located rest isOperator right read ih =>
      have operand := term_follows follows rest
      rw [read] at operand
      exact FollowedFrom.step (by rw [isOperator]; rfl) (FollowedFrom.andThen operand ih)
  | case4 left located rest isOperator refusal read =>
      have right := term_follows follows rest
      rw [read] at right
      exact FollowedFrom.step (by rw [isOperator]; rfl) right
  | case5 left located rest isOperator right read ih =>
      have operand := term_follows follows rest
      rw [read] at operand
      exact FollowedFrom.step (by rw [isOperator]; rfl) (FollowedFrom.andThen operand ih)
  | case6 => exact followedFrom_done

theorem sum_follows (follows : grouping.Follows opened) (lexemes : List Located) :
    FollowedFrom (.operand opened) opened lexemes (sum grouping lexemes) := by
  have first := term_follows follows lexemes
  unfold sum
  cases read : term grouping lexemes with
  | error refusal => rwa [read] at first
  | ok parsed =>
      rw [read] at first
      exact FollowedFrom.andThen first (sumFrom_follows follows parsed.expression parsed.rest)

theorem termFrom_ends {left : Expression} {lexemes : List Located} {parsed : Parsed}
    (found : termFrom grouping left lexemes = .ok parsed) :
    EndsTerm (parsed.rest.map Located.lexeme) := by
  fun_induction termFrom grouping left lexemes with
  | case1 =>
      cases found
      exact endsTerm_nil
  | case2 left located rest isAdd =>
      cases found
      exact endsTerm_cons (by rw [isAdd]; rfl) _
  | case3 left located rest isSubtract =>
      cases found
      exact endsTerm_cons (by rw [isSubtract]; rfl) _
  | case4 left located rest isClosing =>
      cases found
      exact endsTerm_cons (by rw [isClosing]; rfl) _
  | case6 _ _ _ _ _ _ _ _ _ ih => exact ih found
  | case8 _ _ _ _ _ _ ih => exact ih found
  | case5 | case7 | case9 | case10 | case11 => simp at found

theorem term_ends {lexemes : List Located} {parsed : Parsed}
    (found : term grouping lexemes = .ok parsed) : EndsTerm (parsed.rest.map Located.lexeme) := by
  unfold term at found
  split at found
  · simp at found
  · exact termFrom_ends found

theorem sumFrom_ends {left : Expression} {lexemes : List Located} {parsed : Parsed}
    (before : EndsTerm (lexemes.map Located.lexeme))
    (found : sumFrom grouping left lexemes = .ok parsed) :
    EndsSum (parsed.rest.map Located.lexeme) := by
  fun_induction sumFrom grouping left lexemes with
  | case1 =>
      cases found
      exact endsSum_nil
  | case3 _ _ _ _ _ read ih => exact ih (term_ends read) found
  | case5 _ _ _ _ _ read ih => exact ih (term_ends read) found
  | case6 left located rest notAdd notSubtract =>
      cases found
      have ends := before located.lexeme (by simp)
      intro next isNext
      simp only [List.map_cons, List.head?_cons, Option.mem_def, Option.some.injEq] at isNext
      subst isNext
      cases lexeme : located.lexeme with
      | closing => rfl
      | operator sign => cases sign <;> simp_all [Lexeme.endsTerm, Operator.additive]
      | number | opening | name | unknown => simp [lexeme, Lexeme.endsTerm] at ends
  | case2 | case4 => simp at found

theorem sum_ends {lexemes : List Located} {parsed : Parsed}
    (found : sum grouping lexemes = .ok parsed) : EndsSum (parsed.rest.map Located.lexeme) := by
  unfold sum at found
  split at found
  · simp at found
  · rename_i read
    exact sumFrom_ends (term_ends read) found

theorem enclosed_follows (follows : grouping.Follows (opened + 1))
    (shallow : opened < maximumNesting) (awaited : Awaited) (start : Nat) (lexemes : List Located)
    (same : awaited.opened = opened) :
    FollowedFrom awaited opened (⟨start, .opening⟩ :: lexemes) (enclosed grouping lexemes) := by
  subst same
  have entered : awaited.step .opening = some (.operand (awaited.opened + 1)) := by
    simp [step, shallow]
  apply FollowedFrom.step entered
  have inside := sum_follows follows lexemes
  unfold enclosed
  cases read : sum grouping lexemes with
  | error refusal => rwa [read] at inside
  | ok parsed =>
      rw [read] at inside
      obtain ⟨before, whole, led⟩ := inside
      have ends := sum_ends read
      simp only
      cases after : parsed.rest with
      | nil =>
          rw [after, List.append_nil] at whole
          subst whole
          exact ⟨_, led, by simp⟩
      | cons located rest =>
          have isClosing : located.lexeme = .closing := by
            rw [after] at ends
            exact ends located.lexeme (by simp)
          rw [after] at whole
          simp only [isClosing]
          refine ⟨before ++ [located], by simp [whole], ?_⟩
          rw [List.map_append, run_append_of_some led]
          simp [run_cons, isClosing, step]

theorem nested_follows (room opened : Nat) (whole : opened + room = maximumNesting) :
    (nested room).Follows opened := by
  induction room generalizing opened with
  | zero =>
      intro awaited start lexemes same
      refine refusedFrom_onReading ?_ .shallowerNesting lexemes
      simp only [step, same]
      rw [if_neg (by omega)]
  | succ room ih =>
      exact enclosed_follows (ih (opened + 1) (by omega)) (by omega)

theorem ofLexemes_refusedFrom {lexemes : List Located} {refusal : Refusal}
    (refused : ofLexemes lexemes = .error refusal) : RefusedFrom (.operand 0) lexemes refusal := by
  have followed := sum_follows (nested_follows maximumNesting 0 (by simp)) lexemes
  unfold ofLexemes at refused
  cases read : sum (nested maximumNesting) lexemes with
  | error other =>
      rw [read] at followed refused
      cases refused
      exact followed
  | ok parsed =>
      have ends := sum_ends read
      rw [read] at followed refused
      obtain ⟨before, whole, led⟩ := followed
      simp only at refused
      cases after : parsed.rest with
      | nil => simp [after] at refused
      | cons located rest =>
          have isClosing : located.lexeme = .closing := by
            rw [after] at ends
            exact ends located.lexeme (by simp)
          simp only [after, Except.error.injEq] at refused
          rw [whole, after, ← refused]
          exact RefusedFrom.prepend led
            (refusedFrom_onSight (by rw [isClosing]; rfl) .operatorOrEnd rest)

theorem run_of_ofLexemes {lexemes : List Located} {expression : Expression}
    (accepted : ofLexemes lexemes = .ok expression) :
    (operand 0).run (lexemes.map Located.lexeme) = some (.continuation 0) := by
  have followed := sum_follows (nested_follows maximumNesting 0 (by simp)) lexemes
  unfold ofLexemes at accepted
  cases read : sum (nested maximumNesting) lexemes with
  | error refusal => simp [read] at accepted
  | ok parsed =>
      rw [read] at followed accepted
      obtain ⟨before, whole, led⟩ := followed
      simp only at accepted
      cases after : parsed.rest with
      | nil =>
          rw [after, List.append_nil] at whole
          rw [whole, led]
      | cons located rest => simp [after] at accepted

theorem ofLexemes_isOk_iff (lexemes : List Located) :
    (∃ expression, ofLexemes lexemes = .ok expression) ↔
      (operand 0).run (lexemes.map Located.lexeme) = some (.continuation 0) := by
  constructor
  · rintro ⟨expression, accepted⟩
    exact run_of_ofLexemes accepted
  · intro led
    cases read : ofLexemes lexemes with
    | ok expression => exact ⟨expression, rfl⟩
    | error refusal =>
        have refused := ofLexemes_refusedFrom read
        unfold RefusedFrom at refused
        split at refused
        · obtain ⟨reached, ledTo, unfinished⟩ := refused
          rw [led, Option.some.injEq] at ledTo
          exact absurd ledTo.symm unfinished
        · obtain ⟨before, located, after, reached, rfl, ledTo, stuck, _⟩ := refused
          rw [List.map_append, run_append_of_some ledTo, List.map_cons, run_cons, stuck] at led
          simp at led

end Expression

end FractionCalculator
