import FractionCalculator.Proofs.Grammar.Progress

/-!
What a refusal can be about. It quotes a lexeme that was read or looked at, or says that the lexemes
ended too early; a closing parenthesis is missed at the end alone.
-/

namespace FractionCalculator

inductive Refusal.Concerns (lexemes : List Located) : Refusal → Prop
  | atEnd (expected : Expectation) : Concerns lexemes (.atEnd expected)
  | onReading {located : Located} {expected : Expectation} (member : located ∈ lexemes)
      (other : expected ≠ .closing := by decide) : Concerns lexemes (.onReading expected located)
  | onSight {located : Located} {expected : Expectation} (member : located ∈ lexemes)
      (other : expected ≠ .closing := by decide) : Concerns lexemes (.onSight expected located)

/-- What is left to read is an end of the lexemes, and a refusal concerns one of them. -/
def Accounted (lexemes : List Located) : Except Refusal Parsed → Prop
  | .ok parsed => parsed.rest <:+ lexemes
  | .error refusal => refusal.Concerns lexemes

theorem Refusal.Concerns.widen {rest lexemes : List Located} {refusal : Refusal}
    (shorter : rest <:+ lexemes) (concerns : refusal.Concerns rest) :
    refusal.Concerns lexemes := by
  cases concerns with
  | atEnd expected => exact .atEnd expected
  | onReading member other => exact .onReading (shorter.subset member) other
  | onSight member other => exact .onSight (shorter.subset member) other

theorem Accounted.widen {rest lexemes : List Located} {result : Except Refusal Parsed}
    (shorter : rest <:+ lexemes) (accounted : Accounted rest result) :
    Accounted lexemes result := by
  cases result with
  | ok parsed => exact List.IsSuffix.trans accounted shorter
  | error refusal => exact Refusal.Concerns.widen shorter accounted

theorem Accounted.cons {located : Located} {rest : List Located} {result : Except Refusal Parsed}
    (accounted : Accounted rest result) : Accounted (located :: rest) result :=
  accounted.widen (List.suffix_cons located rest)

def Grouping.Accounts (grouping : Grouping) : Prop :=
  ∀ start lexemes, Accounted (⟨start, .opening⟩ :: lexemes) (grouping.read start lexemes)

namespace Expression

variable {grouping : Grouping}

theorem negated_accounted (accounts : grouping.Accounts) (lexemes : List Located) :
    Accounted lexemes (negated grouping lexemes) := by
  cases lexemes with
  | nil => exact .atEnd .operand
  | cons located rest =>
      obtain ⟨start, lexeme⟩ := located
      cases lexeme with
      | number digits => exact List.suffix_cons _ rest
      | opening =>
          have inside := accounts start rest
          simp only [negated]
          cases read : grouping.read start rest with
          | error refusal => rwa [read] at inside
          | ok parsed => rwa [read] at inside
      | closing => exact .onReading List.mem_cons_self
      | operator sign => exact .onReading List.mem_cons_self
      | name letters => exact .onReading List.mem_cons_self
      | unknown character => exact .onReading List.mem_cons_self

theorem primary_accounted (accounts : grouping.Accounts) (lexemes : List Located) :
    Accounted lexemes (primary grouping lexemes) := by
  cases lexemes with
  | nil => exact .atEnd .operand
  | cons located rest =>
      obtain ⟨start, lexeme⟩ := located
      cases lexeme with
      | number digits => exact List.suffix_cons _ rest
      | opening => exact accounts start rest
      | operator sign =>
          cases sign with
          | subtract => exact (negated_accounted accounts rest).cons
          | add | multiply | divide => exact .onReading List.mem_cons_self
      | closing => exact .onReading List.mem_cons_self
      | name letters => exact .onReading List.mem_cons_self
      | unknown character => exact .onReading List.mem_cons_self

theorem termFrom_accounted (accounts : grouping.Accounts) (left : Expression)
    (lexemes : List Located) : Accounted lexemes (termFrom grouping left lexemes) := by
  fun_induction termFrom grouping left lexemes with
  | case1 | case2 | case3 | case4 => exact List.suffix_rfl
  | case5 left located rest operator _ _ _ refusal read =>
      have right := primary_accounted accounts rest
      rw [read] at right
      exact right.cons
  | case6 left located rest operator _ _ _ right read ih =>
      have shorter := primary_accounted accounts rest
      rw [read] at shorter
      exact (ih.widen shorter).cons
  | case7 left located rest isOpening refusal read =>
      have right := accounts located.start rest
      rw [read, ← isOpening] at right
      exact right
  | case8 left located rest isOpening right read ih =>
      have shorter := accounts located.start rest
      rw [read, ← isOpening] at shorter
      exact ih.widen shorter
  | case9 | case10 | case11 => exact .onSight List.mem_cons_self

theorem term_accounted (accounts : grouping.Accounts) (lexemes : List Located) :
    Accounted lexemes (term grouping lexemes) := by
  have first := primary_accounted accounts lexemes
  unfold term
  cases read : primary grouping lexemes with
  | error refusal => rwa [read] at first
  | ok parsed =>
      rw [read] at first
      exact (termFrom_accounted accounts parsed.expression parsed.rest).widen first

theorem sumFrom_accounted (accounts : grouping.Accounts) (left : Expression)
    (lexemes : List Located) : Accounted lexemes (sumFrom grouping left lexemes) := by
  fun_induction sumFrom grouping left lexemes with
  | case1 | case6 => exact List.suffix_rfl
  | case2 left located rest _ refusal read | case4 left located rest _ refusal read =>
      have right := term_accounted accounts rest
      rw [read] at right
      exact right.cons
  | case3 left located rest _ right read ih | case5 left located rest _ right read ih =>
      have shorter := term_accounted accounts rest
      rw [read] at shorter
      exact (ih.widen shorter).cons

theorem sum_accounted (accounts : grouping.Accounts) (lexemes : List Located) :
    Accounted lexemes (sum grouping lexemes) := by
  have first := term_accounted accounts lexemes
  unfold sum
  cases read : term grouping lexemes with
  | error refusal => rwa [read] at first
  | ok parsed =>
      rw [read] at first
      exact (sumFrom_accounted accounts parsed.expression parsed.rest).widen first

theorem enclosed_accounted (accounts : grouping.Accounts) (lexemes : List Located) :
    Accounted lexemes (enclosed grouping lexemes) := by
  have inside := sum_accounted accounts lexemes
  unfold enclosed
  cases read : sum grouping lexemes with
  | error refusal => rwa [read] at inside
  | ok parsed =>
      rw [read] at inside
      cases after : parsed.rest with
      | nil =>
          simp only [after]
          exact .atEnd .closing
      | cons located rest =>
          -- A sum ends at a closing parenthesis, so nothing else can stand in its place.
          have ends := sum_ends read
          rw [after] at ends
          have isClosing : located.lexeme = .closing := ends _ rfl
          have shorter : located :: rest <:+ lexemes := after ▸ inside
          simp only [after, isClosing]
          exact (List.suffix_cons located rest).trans shorter

theorem nested_accounts (room : Nat) : (nested room).Accounts := by
  induction room with
  | zero => exact fun start lexemes => .onReading List.mem_cons_self
  | succ room ih => exact fun start lexemes => (enclosed_accounted ih lexemes).cons

theorem ofLexemes_concerns {lexemes : List Located} {refusal : Refusal}
    (refused : ofLexemes lexemes = .error refusal) : refusal.Concerns lexemes := by
  have accounted := sum_accounted (nested_accounts maximumNesting) lexemes
  unfold ofLexemes at refused
  cases read : sum (nested maximumNesting) lexemes with
  | error other =>
      rw [read] at accounted refused
      cases refused
      exact accounted
  | ok parsed =>
      rw [read] at accounted refused
      simp only at refused
      cases after : parsed.rest with
      | nil => simp [after] at refused
      | cons located rest =>
          have shorter : located :: rest <:+ lexemes := after ▸ accounted
          simp only [after, Except.error.injEq] at refused
          rw [← refused]
          exact .onSight (shorter.subset List.mem_cons_self)

end Expression

end FractionCalculator
