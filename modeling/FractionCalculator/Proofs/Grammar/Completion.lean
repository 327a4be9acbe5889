import FractionCalculator.Proofs.Grammar.Acceptance

/-!
A refusal comes neither early nor late: what stands before it can still become an expression, and what
stands up to it cannot.
-/

namespace FractionCalculator

open Awaited Lexeme

theorem parse_isOk_iff (text : String) :
    (∃ expression, Expression.parse text = .ok expression) ↔
      (operand 0).run (lexemesIn text.toList) = some (.continuation 0) := by
  rw [← map_lexeme_lexemesOf, ← Expression.ofLexemes_isOk_iff]
  constructor
  · rintro ⟨expression, accepted⟩
    exact ⟨expression, ofLexemes_of_parse accepted⟩
  · rintro ⟨expression, accepted⟩
    exact ⟨expression, parse_of_ofLexemes accepted⟩

def Awaited.ending : Awaited → List Char
  | .operand opened | .magnitude opened => ' ' :: '1' :: List.replicate opened ')'
  | .continuation opened => ' ' :: List.replicate opened ')'

theorem lexemesIn_closings (count : Nat) :
    lexemesIn (List.replicate count ')') = List.replicate count .closing := by
  induction count with
  | zero => exact lexemesIn_nil
  | succ count ih =>
      rw [List.replicate_succ, lexemesIn_mark (by decide), ih, List.replicate_succ]
      rfl

theorem run_closings (count : Nat) :
    (continuation count).run (List.replicate count .closing) = some (.continuation 0) := by
  induction count with
  | zero => rfl
  | succ count ih =>
      rw [List.replicate_succ, run_cons]
      exact ih

theorem lexemesIn_one_closings (count : Nat) :
    lexemesIn ('1' :: List.replicate count ')') =
      .number "1" :: List.replicate count .closing := by
  have ends : ∀ next ∈ (List.replicate count ')').head?, continuesNumber next = false := by
    intro next isNext
    rw [List.eq_of_mem_replicate (List.mem_of_mem_head? isNext)]
    rfl
  have goesOn : ∀ character ∈ ([] : List Char), continuesNumber character = true := by simp
  rw [← lexemesIn_closings]
  exact lexemesIn_number (by decide) goesOn ends

theorem run_ending (awaited : Awaited) :
    awaited.run (lexemesIn awaited.ending) = some (.continuation 0) := by
  cases awaited with
  | operand opened | magnitude opened =>
      rw [ending, lexemesIn_blank (by decide), lexemesIn_one_closings, run_cons]
      exact run_closings opened
  | continuation opened =>
      rw [ending, lexemesIn_blank (by decide), lexemesIn_closings]
      exact run_closings opened

theorem ending_head (awaited : Awaited) : ∀ next ∈ awaited.ending.head?, isBlank next = true := by
  cases awaited <;> simp [ending] <;> decide

theorem completable_of_run {text : String} {reached : Awaited}
    (led : (operand 0).run (lexemesIn text.toList) = some reached) :
    ∃ more expression, Expression.parse (text ++ more) = .ok expression := by
  refine ⟨String.ofList reached.ending, (parse_isOk_iff _).mpr ?_⟩
  rw [String.toList_append, String.toList_ofList, lexemesIn_append, run_append_of_some led]
  · exact run_ending reached
  · intro last _ next isNext
    exact joins_blank_right (ending_head reached next isNext) last

theorem step_leading (awaited : Awaited) (first : Char) (rest other : List Char) :
    awaited.step (leading first rest) = awaited.step (leading first other) := by
  unfold leading
  split
  · rfl
  split
  · rfl
  split
  · rfl
  split
  · rfl
  split
  · rfl
  · rfl

theorem hopeless_of_stuck {front : List Char} {first : Char} {rest : List Char}
    {reached : Awaited} {earlier : List Lexeme} (visible : isBlank first = false)
    (onward : ∀ other, lexemesIn (front ++ first :: other) = earlier ++ lexemesIn (first :: other))
    (led : (operand 0).run earlier = some reached)
    (stuck : reached.step (leading first rest) = none) (more : String) (expression : Expression) :
    Expression.parse (String.ofList (front ++ [first]) ++ more) ≠ .ok expression := by
  intro accepted
  have finished := (parse_isOk_iff _).mp ⟨expression, accepted⟩
  have still : reached.step (leading first more.toList) = none := by
    rw [step_leading reached first more.toList rest, stuck]
  rw [String.toList_append, String.toList_ofList, List.append_assoc, List.singleton_append, onward,
    run_append_of_some led, lexemesIn_first visible, run_cons, still, Option.bind_none] at finished
  simp at finished

/-- A refusal without a position refuses an unfinished text. A refusal at a position refuses the first
character that nothing can follow to make an expression. -/
theorem refusal_first_hopeless {text : String} {malformation : Malformation}
    (refused : Expression.parse text = .error malformation) :
    match malformation.position with
    | none => ∃ more expression, Expression.parse (text ++ more) = .ok expression
    | some position => position < text.toList.length ∧
        (∃ more expression, Expression.parse
          (String.ofList (text.toList.take position) ++ more) = .ok expression) ∧
        ∀ more expression, Expression.parse
          (String.ofList (text.toList.take (position + 1)) ++ more) ≠ .ok expression := by
  obtain ⟨refusal, read, rfl⟩ := ofLexemes_of_parse_error refused
  have stops := Expression.ofLexemes_refusedFrom read
  obtain ⟨expected, found⟩ := refusal
  cases found with
  | none =>
      obtain ⟨reached, led, _⟩ := stops
      exact completable_of_run led
  | some found =>
      obtain ⟨before, located, after, reached, whole, led, stuck, place⟩ := stops
      obtain ⟨front, first, rest, characters, visible, rfl, earlier, onward⟩ :=
        lexemesOf_split whole
      simp only at place
      simp only [Refusal.malformation, Option.map_some, ← place, characters]
      refine ⟨by simp, ?_, ?_⟩
      · rw [List.take_left]
        apply completable_of_run
        rw [String.toList_ofList, earlier]
        exact led
      · intro more expression
        have taken : (front ++ first :: rest).take (front.length + 1) = front ++ [first] := by
          rw [List.take_append, List.take_of_length_le (Nat.le_succ _), Nat.add_sub_cancel_left]
          rfl
        rw [taken]
        exact hopeless_of_stuck visible onward led stuck more expression

theorem repeated_sign_hopeless :
    Expression.parse "2(3 + * 4)" =
        .error ⟨"un nombre ou une parenthèse", some "*", some 6, "2(3 + * 4)"⟩ ∧
      6 < "2(3 + * 4)".toList.length ∧
      (∃ more expression, Expression.parse
        (String.ofList ("2(3 + * 4)".toList.take 6) ++ more) = .ok expression) ∧
      ∀ more expression, Expression.parse
        (String.ofList ("2(3 + * 4)".toList.take 7) ++ more) ≠ .ok expression := by
  have refused : Expression.parse "2(3 + * 4)" =
      .error ⟨"un nombre ou une parenthèse", some "*", some 6, "2(3 + * 4)"⟩ := by
    decide +kernel
  exact ⟨refused, refusal_first_hopeless refused⟩

end FractionCalculator
