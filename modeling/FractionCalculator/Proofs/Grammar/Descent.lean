import FractionCalculator.Expression.Parser
import FractionCalculator.Proofs.Lexing.Partition

/-!
Parsing as a walk through the text, with one character in view and a counter of the open parentheses.
Each level refuses whatever it could not go on with, also what the level below it never leaves. Every
walk goes forward, so reading ends although the levels call each other.
-/

namespace FractionCalculator

def Cursor.Reaches (cursor later : Cursor) : Prop :=
  ∃ passed, cursor.rest = passed ++ later.rest ∧ later.position = cursor.position + passed.length

namespace Cursor.Reaches

theorem refl (cursor : Cursor) : cursor.Reaches cursor := ⟨[], rfl, rfl⟩

theorem trans {cursor later last : Cursor} (first : cursor.Reaches later)
    (second : later.Reaches last) : cursor.Reaches last := by
  obtain ⟨passed, whole, place⟩ := first
  obtain ⟨more, wholeLater, placeLater⟩ := second
  refine ⟨passed ++ more, ?_, ?_⟩
  · rw [whole, wholeLater, List.append_assoc]
  · rw [placeLater, place, List.length_append, Nat.add_assoc]

theorem length_le {cursor later : Cursor} (reaches : cursor.Reaches later) :
    later.rest.length ≤ cursor.rest.length := by
  obtain ⟨passed, whole, _⟩ := reaches
  rw [whole, List.length_append]
  exact Nat.le_add_left _ _

theorem position_lt {cursor later : Cursor} (reaches : cursor.Reaches later)
    (shorter : later.rest.length < cursor.rest.length) : cursor.position < later.position := by
  obtain ⟨passed, whole, place⟩ := reaches
  rw [whole, List.length_append] at shorter
  omega

end Cursor.Reaches

theorem Cursor.reaches_consume (cursor : Cursor) : cursor.Reaches cursor.consume.2 := by
  rcases cursor.blank_or_ahead with blank | ⟨blanks, first, run, rest, ahead⟩
  · rw [consume_of_blank blank]
    exact ⟨cursor.rest, (List.append_nil _).symm, rfl⟩
  · rw [ahead.consume]
    refine ⟨blanks ++ first :: run, ?_, ?_⟩
    · rw [ahead.whole, List.append_assoc, List.cons_append]
    · simp only [List.length_append, List.length_cons]
      omega

structure Complaint where
  expected : String
  found : Option (String × Nat)
deriving DecidableEq, Repr

namespace Complaint

def atEnd (expected : String) : Complaint := ⟨expected, none⟩

def onFinding (expected found : String) (position : Nat) : Complaint :=
  ⟨expected, some (found, position)⟩

def onNoToken (expected : String) (seen : Option Char) (position : Nat) : Complaint :=
  match seen with
  | some character => onFinding expected (String.singleton character) position
  | none => atEnd expected

def malformation (complaint : Complaint) (expression : String) : Malformation :=
  { expected := complaint.expected
    found := complaint.found.map Prod.fst
    position := complaint.found.map Prod.snd
    expression := expression }

end Complaint

/-- A place in a text, how many parentheses are open there, and the most that were open on the way. -/
structure Descent where
  cursor : Cursor
  depth : Nat := 0
  deepest : Nat := 0
deriving DecidableEq, Repr

namespace Descent

def left (descent : Descent) : Nat := descent.cursor.rest.length

def peek (descent : Descent) : Option Token := descent.cursor.peek

def nextPosition (descent : Descent) : Nat := descent.cursor.nextPosition

def consume (descent : Descent) : Option Token × Descent :=
  (descent.cursor.consume.1, { descent with cursor := descent.cursor.consume.2 })

def enter (descent : Descent) : Descent :=
  { descent with
    depth := descent.depth + 1
    deepest := max descent.deepest (descent.depth + 1) }

def leave (descent : Descent) : Descent := { descent with depth := descent.depth - 1 }

structure Return (descent : Descent) where
  result : Except Complaint Expression
  next : Descent
  reaches : descent.cursor.Reaches next.cursor

def Return.behind {descent later : Descent} (returned : Return later)
    (reaches : descent.cursor.Reaches later.cursor) : Return descent :=
  ⟨returned.result, returned.next, reaches.trans returned.reaches⟩

theorem Return.left_le {descent : Descent} (returned : Return descent) :
    returned.next.left ≤ descent.left :=
  returned.reaches.length_le

theorem Return.left_behind_le {descent later : Descent} (returned : Return later)
    (reaches : descent.cursor.Reaches later.cursor) :
    (returned.behind reaches).next.left ≤ later.left :=
  returned.left_le

theorem reaches_consume (descent : Descent) : descent.cursor.Reaches descent.consume.2.cursor :=
  descent.cursor.reaches_consume

theorem consume_left_le (descent : Descent) : descent.consume.2.left ≤ descent.left :=
  descent.reaches_consume.length_le

theorem consume_left_lt {descent : Descent} {token : Token}
    (found : descent.consume.1 = some token) : descent.consume.2.left < descent.left := by
  apply Cursor.consume_shortens
  intro atEnd
  change descent.cursor.consume.1 = some token at found
  simp [Cursor.consume_of_nil atEnd] at found

def closed {descent : Descent} (sum : Return descent.enter) : Return descent :=
  -- The counter is restored even where no sum was found.
  let after := sum.next.leave
  match sum.result with
  | .error complaint => ⟨.error complaint, after, sum.reaches⟩
  | .ok expression =>
      match after.peek with
      | none => ⟨.error (.atEnd Expectation.closing.text), after, sum.reaches⟩
      | some seen =>
          if seen.isSymbol ')' then
            ⟨.ok expression, after.consume.2, sum.reaches.trans after.reaches_consume⟩
          else
            ⟨.error (.onFinding Expectation.closing.text seen.text after.nextPosition), after,
              sum.reaches⟩

abbrev Inside (bound : Nat) := (descent : Descent) → descent.left < bound → Return descent

section Levels

variable {bound : Nat} (inside : Inside bound)

def group (descent : Descent) (within : descent.left < bound) (bracket : Token) (start : Nat) :
    Return descent :=
  if bracket.isSymbol '(' then
    if maximumNesting ≤ descent.depth then
      ⟨.error (.onFinding Expectation.shallowerNesting.text bracket.text start), descent, .refl _⟩
    else
      closed (inside descent.enter within)
  else
    ⟨.error (.onFinding Expectation.opening.text bracket.text start), descent, .refl _⟩

def negation (descent : Descent) (within : descent.left < bound) (sign : Token) (start : Nat) :
    Return descent :=
  if sign.isSymbol '-' then
    let after := descent.consume.2
    have shorter : after.left < bound := Nat.lt_of_le_of_lt descent.consume_left_le within
    match descent.consume.1 with
    | none =>
        ⟨.error (.onNoToken Expectation.operand.text descent.cursor.nextCharacter?
          descent.nextPosition), after, descent.reaches_consume⟩
    | some token =>
        match token.kind with
        | .number =>
            ⟨.ok (.number ("-" ++ token.text)), after, descent.reaches_consume⟩
        | .parenthesis =>
            let grouped := (group inside after shorter token descent.nextPosition).behind
              descent.reaches_consume
            ⟨grouped.result.map fun expression =>
              .binary .multiply (.number "-1") expression, grouped.next, grouped.reaches⟩
        | .operator | .functionName =>
            ⟨.error (.onFinding Expectation.operand.text token.text descent.nextPosition), after,
              descent.reaches_consume⟩
  else
    ⟨.error (.onFinding Expectation.operand.text sign.text start), descent, .refl _⟩

def primaryWith (descent : Descent) (within : descent.left ≤ bound) : Return descent :=
  let start := descent.nextPosition
  let after := descent.consume.2
  match found : descent.consume.1 with
  | none =>
      ⟨.error (.onNoToken Expectation.operand.text descent.cursor.nextCharacter? start), after,
        descent.reaches_consume⟩
  | some token =>
      have shorter : after.left < bound := Nat.lt_of_lt_of_le (consume_left_lt found) within
      match token.kind with
      | .number => ⟨.ok (.literal token), after, descent.reaches_consume⟩
      | .operator => (negation inside after shorter token start).behind descent.reaches_consume
      | .parenthesis => (group inside after shorter token start).behind descent.reaches_consume
      | .functionName =>
          ⟨.error (.onFinding Expectation.operandWithoutFunctions.text token.text start), after,
            descent.reaches_consume⟩

theorem primaryWith_of_none {descent : Descent} (within : descent.left ≤ bound)
    (missing : descent.consume.1 = none) :
    primaryWith inside descent within =
      ⟨.error (.onNoToken Expectation.operand.text descent.cursor.nextCharacter?
        descent.nextPosition), descent.consume.2, descent.reaches_consume⟩ := by
  unfold primaryWith
  split
  · rfl
  · rename_i found
    simp [missing] at found

theorem primaryWith_of_some {descent : Descent} (within : descent.left ≤ bound) {token : Token}
    (found : descent.consume.1 = some token) :
    primaryWith inside descent within =
      have shorter := Nat.lt_of_lt_of_le (consume_left_lt found) within
      match token.kind with
      | .number => ⟨.ok (.literal token), descent.consume.2, descent.reaches_consume⟩
      | .operator => (negation inside descent.consume.2 shorter token descent.nextPosition).behind
          descent.reaches_consume
      | .parenthesis => (group inside descent.consume.2 shorter token descent.nextPosition).behind
          descent.reaches_consume
      | .functionName =>
          ⟨.error (.onFinding Expectation.operandWithoutFunctions.text token.text
            descent.nextPosition), descent.consume.2, descent.reaches_consume⟩ := by
  unfold primaryWith
  split
  · rename_i missing
    simp [found] at missing
  · rename_i other same
    cases same.symm.trans found
    rfl

theorem primaryWith_left_lt {descent : Descent} (within : descent.left ≤ bound) {token : Token}
    (found : descent.consume.1 = some token) :
    (primaryWith inside descent within).next.left < descent.left := by
  have shorter := consume_left_lt found
  rw [primaryWith_of_some inside within found]
  cases token.kind with
  | number | functionName => exact shorter
  | operator | parenthesis => exact Nat.lt_of_le_of_lt (Return.left_behind_le _ _) shorter

theorem primaryWith_advances {descent : Descent} {within : descent.left ≤ bound}
    {expression : Expression} (found : (primaryWith inside descent within).result = .ok expression) :
    (primaryWith inside descent within).next.left < descent.left := by
  cases consumed : descent.consume.1 with
  | some token => exact primaryWith_left_lt inside within consumed
  | none =>
      rw [primaryWith_of_none inside within consumed] at found
      cases found

end Levels

structure Level (bound : Nat) where
  read : (descent : Descent) → descent.left ≤ bound → Return descent
  advances : ∀ {descent within expression}, (read descent within).result = .ok expression →
    (read descent within).next.left < descent.left

/-- What stands behind an operand: the end of a chain, an operator and the place behind it, or what
cannot stand there. -/
inductive Link (descent : Descent)
  | ends
  | sign (operator : Token) (before : Descent) (reaches : descent.cursor.Reaches before.cursor)
  | refused (complaint : Complaint) (reached : Descent)
      (reaches : descent.cursor.Reaches reached.cursor)

def factorLink (descent : Descent) : Link descent :=
  match descent.peek with
  | none => .ends
  | some seen =>
      match seen.kind with
      | .operator =>
          if seen.isSymbol '+' || seen.isSymbol '-' then
            .ends
          else
            .sign seen descent.consume.2 descent.reaches_consume
      | .parenthesis =>
          if seen.isSymbol ')' then
            .ends
          else
            -- This star is not written, and the parenthesis is left to be read.
            .sign (.ofCharacter .operator '*') descent (.refl _)
      | .number | .functionName =>
          .refused (.onFinding Expectation.operatorOrParenthesis.text seen.text
            descent.nextPosition) descent (.refl _)

def additiveSigns : String := "'+' ou '-'"

def arithmeticSigns : String := "un opérateur parmi + - * /"

def termLink (descent : Descent) : Link descent :=
  match descent.peek with
  | none => .ends
  | some seen =>
      if seen.isSymbol ')' then
        .ends
      else
        match descent.consume.1 with
        | none => .refused (.atEnd additiveSigns) descent.consume.2 descent.reaches_consume
        | some token =>
            if token.isSymbol '+' || token.isSymbol '-' then
              .sign token descent.consume.2 descent.reaches_consume
            else
              .refused (.onFinding additiveSigns token.text descent.nextPosition)
                descent.consume.2 descent.reaches_consume

def joined (operator : Token) (left right : Expression) : Except Complaint Expression :=
  match operator.symbol?.bind Operator.ofSymbol? with
  | some sign => .ok (.binary sign left right)
  | none => .error (.atEnd arithmeticSigns)

section Chain

variable {bound : Nat} (link : (descent : Descent) → Link descent) (operand : Level bound)

def chainFrom (left : Expression) (descent : Descent) (within : descent.left ≤ bound) :
    Return descent :=
  match link descent with
  | .ends => ⟨.ok left, descent, .refl _⟩
  | .refused complaint reached reaches => ⟨.error complaint, reached, reaches⟩
  | .sign operator before reaches =>
      have within : before.left ≤ bound := Nat.le_trans reaches.length_le within
      let right := operand.read before within
      match _ : right.result with
      | .error complaint => ⟨.error complaint, right.next, reaches.trans right.reaches⟩
      | .ok factor =>
          match joined operator left factor with
          | .error complaint => ⟨.error complaint, right.next, reaches.trans right.reaches⟩
          | .ok expression =>
              (chainFrom expression right.next (Nat.le_trans right.left_le within)).behind
                (reaches.trans right.reaches)
termination_by descent.left
decreasing_by exact Nat.lt_of_lt_of_le (operand.advances (by assumption)) reaches.length_le

def chain : Level bound where
  read descent within :=
    let first := operand.read descent within
    match first.result with
    | .error complaint => ⟨.error complaint, first.next, first.reaches⟩
    | .ok expression =>
        (chainFrom link operand expression first.next (Nat.le_trans first.left_le within)).behind
          first.reaches
  advances := by
    intro descent within expression found
    dsimp only at found ⊢
    split at found
    · cases found
    · rename_i first read
      exact Nat.lt_of_le_of_lt (Return.left_behind_le _ _) (operand.advances read)

end Chain

section Levels

variable {bound : Nat} (inside : Inside bound)

def primaryLevel : Level bound := ⟨primaryWith inside, primaryWith_advances inside⟩

def termLevel : Level bound := chain factorLink (primaryLevel inside)

def sumLevel : Level bound := chain termLink (termLevel inside)

end Levels

def sum (descent : Descent) : Return descent :=
  (sumLevel fun inner (_ : inner.left < descent.left) => sum inner).read descent (Nat.le_refl _)
termination_by descent.left

def term (descent : Descent) : Return descent :=
  (termLevel fun inner _ => sum inner).read descent (Nat.le_refl _)

def primary (descent : Descent) : Return descent :=
  (primaryLevel fun inner _ => sum inner).read descent (Nat.le_refl _)

/-- Reads a whole text. Nothing may follow the sum. -/
def parse (text : String) : Except Malformation Expression :=
  let whole := sum { cursor := .start text }
  match whole.result with
  | .error complaint => .error (complaint.malformation text)
  | .ok expression =>
      match whole.next.peek with
      | none => .ok expression
      | some seen =>
          .error ((Complaint.onFinding Expectation.operatorOrEnd.text seen.text
            whole.next.nextPosition).malformation text)

end Descent

end FractionCalculator
