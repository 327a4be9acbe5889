import FractionCalculator.Proofs.Grammar.Progress

/-!
How many parentheses are open at once. What leads somewhere never has more of them open than there is
room for, and a phrase that never has more open leads to an operand.
-/

namespace FractionCalculator

open Awaited

/-- At no place are more parentheses open than the limit. -/
def NestsWithin (limit : Nat) (lexemes : List Lexeme) : Prop :=
  ∀ before, before <+: lexemes → before.count .opening ≤ before.count .closing + limit

def Balanced (lexemes : List Lexeme) : Prop := lexemes.count .opening = lexemes.count .closing

theorem step_opened {awaited next : Awaited} {lexeme : Lexeme}
    (led : awaited.step lexeme = some next) :
    next.opened + [lexeme].count .closing = awaited.opened + [lexeme].count .opening ∧
      (awaited.opened ≤ maximumNesting → next.opened ≤ maximumNesting) := by
  cases lexeme with
  | opening =>
      simp only [step] at led
      split at led
      · rename_i shallow
        cases led
        simp only [opened]
        exact ⟨by simp, fun _ => shallow⟩
      · simp at led
  | number digits => cases awaited <;> simp [step] at led <;> subst led <;> simp [opened]
  | operator sign =>
      cases awaited <;> simp [step] at led
      · obtain ⟨_, rfl⟩ := led
        simp [opened]
      · subst led
        simp [opened]
  | closing =>
      cases awaited with
      | operand _ | magnitude _ => simp [step] at led
      | continuation opened =>
          cases opened with
          | zero => simp [step] at led
          | succ opened =>
              simp only [step, Option.some.injEq] at led
              subst led
              simp only [Awaited.opened]
              exact ⟨by simp, by omega⟩
  | name letters | unknown character => simp [step] at led

theorem run_opened {awaited reached : Awaited} {lexemes : List Lexeme}
    (led : awaited.run lexemes = some reached) :
    reached.opened + lexemes.count .closing = awaited.opened + lexemes.count .opening ∧
      (awaited.opened ≤ maximumNesting → reached.opened ≤ maximumNesting) := by
  induction lexemes generalizing awaited with
  | nil =>
      simp only [run_nil, Option.some.injEq] at led
      subst led
      simp
  | cons lexeme rest ih =>
      rw [run_cons, Option.bind_eq_some_iff] at led
      obtain ⟨next, once, later⟩ := led
      obtain ⟨onceCount, onceBound⟩ := step_opened once
      obtain ⟨laterCount, laterBound⟩ := ih later
      have split (mark : Lexeme) :
          (lexeme :: rest).count mark = [lexeme].count mark + rest.count mark := by
        rw [← List.singleton_append, List.count_append]
      rw [split, split]
      exact ⟨by omega, fun bound => laterBound (onceBound bound)⟩

theorem nestsWithin_of_run {lexemes : List Lexeme} {reached : Awaited}
    (led : (operand 0).run lexemes = some reached) : NestsWithin maximumNesting lexemes := by
  rintro before ⟨after, rfl⟩
  rw [run_append, Option.bind_eq_some_iff] at led
  obtain ⟨middle, ledBefore, _⟩ := led
  obtain ⟨count, bound⟩ := run_opened ledBefore
  have none : (operand 0).opened = 0 := rfl
  have shallow := bound (by omega)
  omega

mutual

theorem SumPhrase.balanced : ∀ sum : SumPhrase, Balanced sum.lexemes
  | .single term => TermPhrase.balanced term
  | .chain left sign additive right => by
      have leftBalanced := SumPhrase.balanced left
      have rightBalanced := TermPhrase.balanced right
      simp_all [Balanced, SumPhrase.lexemes]

theorem TermPhrase.balanced : ∀ term : TermPhrase, Balanced term.lexemes
  | .single primary => PrimaryPhrase.balanced primary
  | .chain left sign multiplicative right => by
      have leftBalanced := TermPhrase.balanced left
      have rightBalanced := PrimaryPhrase.balanced right
      simp_all [Balanced, TermPhrase.lexemes]
  | .beside left inside => by
      have leftBalanced := TermPhrase.balanced left
      have insideBalanced := SumPhrase.balanced inside
      simp_all [Balanced, TermPhrase.lexemes]

theorem PrimaryPhrase.balanced : ∀ primary : PrimaryPhrase, Balanced primary.lexemes
  | .number digits => by simp [Balanced, PrimaryPhrase.lexemes]
  | .negative digits => by simp [Balanced, PrimaryPhrase.lexemes]
  | .negated inside => by
      have insideBalanced := SumPhrase.balanced inside
      simp_all [Balanced, PrimaryPhrase.lexemes]
  | .grouped inside => by
      have insideBalanced := SumPhrase.balanced inside
      simp_all [Balanced, PrimaryPhrase.lexemes]

end

namespace NestsWithin

variable {limit : Nat} {before after : List Lexeme}

theorem of_count_opening (few : before.count .opening ≤ limit) : NestsWithin limit before := by
  intro start isPrefix
  have fewer := isPrefix.sublist.count_le (Lexeme.opening)
  omega

theorem append (balanced : Balanced before) (early : NestsWithin limit before)
    (late : NestsWithin limit after) : NestsWithin limit (before ++ after) := by
  rintro start ⟨rest, whole⟩
  rcases List.append_eq_append_iff.mp whole with ⟨more, rfl, _⟩ | ⟨more, rfl, rfl⟩
  · exact early start (List.prefix_append start more)
  · have bound := late more (List.prefix_append more rest)
    have same : before.count .opening = before.count .closing := balanced
    rw [List.count_append, List.count_append]
    omega

theorem operator (sign : Operator) (late : NestsWithin limit after) :
    NestsWithin limit (.operator sign :: after) := by
  have balanced : Balanced [.operator sign] := by simp [Balanced]
  exact append balanced (of_count_opening (by simp)) late

theorem enclosed (inside : NestsWithin limit before) :
    NestsWithin (limit + 1) (.opening :: (before ++ [.closing])) := by
  intro start isPrefix
  rcases List.prefix_cons_iff.mp isPrefix with rfl | ⟨more, rfl, further⟩
  · exact Nat.zero_le _
  · have bound : more.count .opening ≤ more.count .closing + limit := by
      rcases List.prefix_concat_iff.mp further with rfl | inner
      · have whole := inside before List.prefix_rfl
        rw [List.count_append, List.count_append]
        simp only [List.count_singleton, beq_iff_eq, reduceCtorEq, if_false, if_true]
        omega
      · exact inside more inner
    rw [List.count_cons_self, List.count_cons_of_ne (by simp)]
    omega

end NestsWithin

/-! Whether lexemes fit in behind so many parentheses that are open already. -/

def FitsBehind (opened : Nat) (lexemes : List Lexeme) : Prop :=
  ∀ before, before <+: lexemes →
    opened + before.count .opening ≤ before.count .closing + maximumNesting

theorem fitsBehind_zero {lexemes : List Lexeme} (nests : NestsWithin maximumNesting lexemes) :
    FitsBehind 0 lexemes := by
  intro before isPrefix
  have bound := nests before isPrefix
  omega

theorem FitsBehind.left {opened : Nat} {before after : List Lexeme}
    (fits : FitsBehind opened (before ++ after)) : FitsBehind opened before := by
  intro start isPrefix
  exact fits start (isPrefix.trans (List.prefix_append before after))

theorem FitsBehind.right {opened : Nat} {before after : List Lexeme} (balanced : Balanced before)
    (fits : FitsBehind opened (before ++ after)) : FitsBehind opened after := by
  intro start isPrefix
  have bound := fits (before ++ start) ((List.prefix_append_right_inj before).mpr isPrefix)
  rw [List.count_append, List.count_append] at bound
  have same : before.count .opening = before.count .closing := balanced
  omega

theorem FitsBehind.operator {opened : Nat} {sign : Operator} {rest : List Lexeme}
    (fits : FitsBehind opened (.operator sign :: rest)) : FitsBehind opened rest := by
  have balanced : Balanced [.operator sign] := by simp [Balanced]
  exact FitsBehind.right balanced fits

theorem FitsBehind.opening {opened : Nat} {rest : List Lexeme}
    (fits : FitsBehind opened (.opening :: rest)) :
    opened < maximumNesting ∧ FitsBehind (opened + 1) rest := by
  constructor
  · have bound := fits [.opening] (by simp)
    simp at bound
    omega
  · intro start isPrefix
    have bound := fits (.opening :: start) ((List.prefix_cons_inj _).mpr isPrefix)
    rw [List.count_cons_self, List.count_cons_of_ne (by simp)] at bound
    omega

theorem run_enclosed {awaited : Awaited} {inside : List Lexeme}
    (shallow : awaited.opened < maximumNesting)
    (led : (operand (awaited.opened + 1)).run inside = some (.continuation (awaited.opened + 1))) :
    awaited.run (.opening :: (inside ++ [.closing])) = some (.continuation awaited.opened) := by
  have entered : awaited.step .opening = some (.operand (awaited.opened + 1)) := by
    simp [step, shallow]
  rw [run_cons, entered, Option.bind_some, run_append_of_some led]
  rfl

mutual

theorem SumPhrase.run : ∀ (sum : SumPhrase) (opened : Nat), FitsBehind opened sum.lexemes →
    (operand opened).run sum.lexemes = some (.continuation opened)
  | .single term, opened, fits => TermPhrase.run term opened fits
  | .chain left sign additive right, opened, fits => by
      have ledLeft := SumPhrase.run left opened fits.left
      have ledRight := TermPhrase.run right opened (fits.right left.balanced).operator
      rw [SumPhrase.lexemes, run_append_of_some ledLeft, run_cons]
      exact ledRight

theorem TermPhrase.run : ∀ (term : TermPhrase) (opened : Nat), FitsBehind opened term.lexemes →
    (operand opened).run term.lexemes = some (.continuation opened)
  | .single primary, opened, fits => PrimaryPhrase.run primary opened fits
  | .chain left sign multiplicative right, opened, fits => by
      have ledLeft := TermPhrase.run left opened fits.left
      have ledRight := PrimaryPhrase.run right opened (fits.right left.balanced).operator
      rw [TermPhrase.lexemes, run_append_of_some ledLeft, run_cons]
      exact ledRight
  | .beside left inside, opened, fits => by
      have ledLeft := TermPhrase.run left opened fits.left
      obtain ⟨shallow, fitsInside⟩ := (fits.right left.balanced).opening
      have ledInside := SumPhrase.run inside (opened + 1) fitsInside.left
      rw [TermPhrase.lexemes, run_append_of_some ledLeft]
      exact run_enclosed shallow ledInside

theorem PrimaryPhrase.run : ∀ (primary : PrimaryPhrase) (opened : Nat),
    FitsBehind opened primary.lexemes →
      (operand opened).run primary.lexemes = some (.continuation opened)
  | .number digits, opened, fits => rfl
  | .negative digits, opened, fits => rfl
  | .negated inside, opened, fits => by
      obtain ⟨shallow, fitsInside⟩ := fits.operator.opening
      have ledInside := SumPhrase.run inside (opened + 1) fitsInside.left
      have signed : (operand opened).step (.operator .subtract) = some (.magnitude opened) := rfl
      rw [PrimaryPhrase.lexemes, run_cons, signed, Option.bind_some]
      exact run_enclosed shallow ledInside
  | .grouped inside, opened, fits => by
      obtain ⟨shallow, fitsInside⟩ := fits.opening
      have ledInside := SumPhrase.run inside (opened + 1) fitsInside.left
      rw [PrimaryPhrase.lexemes]
      exact run_enclosed shallow ledInside

end

end FractionCalculator
