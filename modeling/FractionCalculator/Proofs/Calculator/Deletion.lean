import Mathlib
import FractionCalculator.Proofs.Calculator.Entry

/-!
Deleting what keys have written. Each deletion takes one symbol and the spaces that came with it, so as
many deletions as symbols give back the entry as it was, but for the spaces at its end.
-/

namespace FractionCalculator

def Key.symbolCount : Key → Nat
  | doubleZero => 2
  | opening | closing | operator _ | digit _ | point => 1

def Session.pressAll (session : Session) (buttons : List Button) : Session :=
  buttons.foldl (fun session button => session.handle (.press button)) session

def deleted (entry : List Char) : List Char := trimSpaces (trimSpaces entry).dropLast

theorem toList_deleteLast (entry : String) : (deleteLast entry).toList = deleted entry.toList := by
  rw [deleteLast, toList_dropTrailingSpaces, String.toList_ofList, toList_dropTrailingSpaces, deleted]

theorem exists_trimSpaces (entry : List Char) :
    ∃ count, entry = trimSpaces entry ++ List.replicate count ' ' := by
  obtain ⟨spaces, whole, allSpaces⟩ := dropTrailing_append (fun character => character == ' ') entry
  refine ⟨spaces.length, whole.symm.trans (congrArg _ ?_)⟩
  rw [List.eq_replicate_iff]
  exact ⟨rfl, fun character member => beq_iff_eq.mp (allSpaces character member)⟩

theorem getLast?_trimSpaces (entry : List Char) : (trimSpaces entry).getLast? ≠ some ' ' := by
  intro isLast
  exact Bool.noConfusion (getLast?_dropTrailing (fun character => character == ' ') entry ' ' isLast)

theorem trimSpaces_of_getLast? {entry : List Char} (ends : entry.getLast? ≠ some ' ') :
    trimSpaces entry = entry := by
  apply dropTrailing_of_getLast?
  intro last isLast
  rw [beq_eq_false_iff_ne]
  rintro rfl
  exact ends isLast

theorem trimSpaces_trimSpaces (entry : List Char) :
    trimSpaces (trimSpaces entry) = trimSpaces entry :=
  trimSpaces_of_getLast? (getLast?_trimSpaces entry)

theorem trimSpaces_append_spaces (entry : List Char) {spaces : List Char}
    (allSpaces : ∀ character ∈ spaces, character = ' ') :
    trimSpaces (entry ++ spaces) = trimSpaces entry := by
  have skipped : ∀ character ∈ spaces.reverse, (character == ' ') = true := by
    intro character member
    exact beq_iff_eq.mpr (allSpaces character (List.mem_reverse.mp member))
  rw [trimSpaces, dropTrailing, List.reverse_append, List.dropWhile_append_of_pos skipped]
  rfl

theorem deleted_congr {entry other : List Char} (same : trimSpaces entry = trimSpaces other) :
    deleted entry = deleted other := by
  rw [deleted, same, deleted]

theorem trimSpaces_deleted (entry : List Char) : trimSpaces (deleted entry) = deleted entry :=
  trimSpaces_trimSpaces _

theorem deleted_append_symbol (entry : List Char) {symbol : Char} (visible : symbol ≠ ' ') :
    deleted (entry ++ [symbol]) = trimSpaces entry := by
  have ends : (entry ++ [symbol]).getLast? ≠ some ' ' := by simpa using visible
  rw [deleted, trimSpaces_of_getLast? ends, List.dropLast_concat]

/-- Deletions see an entry without the spaces at its end. -/
theorem iterate_deleted_congr {entry other : List Char} (same : trimSpaces entry = trimSpaces other)
    (count : Nat) : trimSpaces (deleted^[count] entry) = trimSpaces (deleted^[count] other) := by
  cases count with
  | zero => exact same
  | succ count => rw [Function.iterate_succ_apply, Function.iterate_succ_apply, deleted_congr same]

theorem trimSpaces_iterate_deleted (entry : List Char) {count : Nat} (positive : 0 < count) :
    trimSpaces (deleted^[count] entry) = deleted^[count] entry := by
  obtain ⟨earlier, rfl⟩ := Nat.exists_eq_add_one_of_ne_zero positive.ne'
  rw [Function.iterate_succ_apply', trimSpaces_deleted]

theorem iterate_deleted_append {symbols : List Char} (visible : ' ' ∉ symbols) (entry : List Char) :
    trimSpaces (deleted^[symbols.length] (entry ++ symbols)) = trimSpaces entry := by
  induction symbols using List.reverseRecOn with
  | nil => rw [List.append_nil, List.length_nil, Function.iterate_zero_apply]
  | append_singleton symbols symbol ih =>
      rw [List.mem_append, List.mem_singleton, not_or] at visible
      obtain ⟨earlier, last⟩ := visible
      rw [List.length_append, List.length_singleton, Function.iterate_succ_apply,
        ← List.append_assoc, deleted_append_symbol _ (Ne.symm last)]
      exact (iterate_deleted_congr (trimSpaces_trimSpaces _) _).trans (ih earlier)

namespace Key

theorem length_text (key : Key) : key.text.toList.length = key.symbolCount := by
  cases key with
  | opening | closing | doubleZero | point => rfl
  | operator sign => exact congrArg List.length (String.toList_singleton _)
  | digit value =>
      revert value
      decide

theorem symbolCount_pos (key : Key) : 0 < key.symbolCount := by
  cases key with
  | opening | closing | operator | digit | point => exact Nat.one_pos
  | doubleZero => exact Nat.two_pos

theorem exists_insert (key : Key) (entry : String) :
    ∃ front spaces, (key.insert entry).toList = front ++ key.text.toList ++ spaces ∧
      trimSpaces front = trimSpaces entry.toList ∧ ∀ character ∈ spaces, character = ' ' := by
  cases key with
  | opening | digit | doubleZero | point =>
      refine ⟨entry.toList, [], ?_, rfl, by simp⟩
      rw [List.append_nil, ← String.toList_append]
      rfl
  | closing =>
      refine ⟨trimSpaces entry.toList, [], ?_, trimSpaces_trimSpaces _, by simp⟩
      rw [List.append_nil, ← toList_dropTrailingSpaces, ← String.toList_append]
      rfl
  | operator sign =>
      by_cases nothing : dropTrailingSpaces entry = ""
      · refine ⟨trimSpaces entry.toList, [' '], ?_, trimSpaces_trimSpaces _, by simp⟩
        rw [← toList_dropTrailingSpaces]
        simp [insert, nothing]
      · refine ⟨trimSpaces entry.toList ++ [' '], [' '], ?_, ?_, by simp⟩
        · rw [← toList_dropTrailingSpaces]
          simp [insert, nothing]
        · rw [trimSpaces_append_spaces _ (by simp), trimSpaces_trimSpaces]

theorem iterate_deleted_insert (key : Key) (entry : String) :
    trimSpaces (deleted^[key.symbolCount] (key.insert entry).toList) = trimSpaces entry.toList := by
  obtain ⟨front, spaces, whole, kept, allSpaces⟩ := key.exists_insert entry
  have plain := not_mem_of_visible key.text_visible
  calc trimSpaces (deleted^[key.symbolCount] (key.insert entry).toList)
    _ = trimSpaces (deleted^[key.symbolCount] (front ++ key.text.toList)) := by
      rw [whole]
      exact iterate_deleted_congr (trimSpaces_append_spaces _ allSpaces) _
    _ = trimSpaces front := by
      rw [← key.length_text]
      exact iterate_deleted_append plain front
    _ = trimSpaces entry.toList := kept

end Key

def insertAll (entry : String) (keys : List Key) : String :=
  keys.foldl (fun entry key => key.insert entry) entry

theorem iterate_deleted_insertAll (keys : List Key) (entry : String) :
    trimSpaces (deleted^[(keys.map Key.symbolCount).sum] (insertAll entry keys).toList) =
      trimSpaces entry.toList := by
  induction keys generalizing entry with
  | nil => rfl
  | cons key keys ih =>
      -- The later keys are deleted first, and leave what this key wrote.
      rw [List.map_cons, List.sum_cons, Function.iterate_add_apply]
      exact (iterate_deleted_congr (ih (key.insert entry)) _).trans (key.iterate_deleted_insert entry)

theorem symbolCount_sum_pos {keys : List Key} (pressed : keys ≠ []) :
    0 < (keys.map Key.symbolCount).sum := by
  cases keys with
  | nil => exact absurd rfl pressed
  | cons key keys =>
      rw [List.map_cons, List.sum_cons]
      exact Nat.add_pos_left key.symbolCount_pos _

theorem toList_iterate_deleteLast (count : Nat) (entry : String) :
    (deleteLast^[count] entry).toList = deleted^[count] entry.toList := by
  induction count generalizing entry with
  | zero => rfl
  | succ count ih =>
      rw [Function.iterate_succ_apply, Function.iterate_succ_apply, ih, toList_deleteLast]

theorem iterate_deleteLast_insertAll {keys : List Key} (pressed : keys ≠ []) (entry : String) :
    deleteLast^[(keys.map Key.symbolCount).sum] (insertAll entry keys) = dropTrailingSpaces entry := by
  apply String.toList_injective
  rw [toList_iterate_deleteLast, toList_dropTrailingSpaces,
    ← trimSpaces_iterate_deleted _ (symbolCount_sum_pos pressed), iterate_deleted_insertAll]

namespace Session

def withEntry (session : Session) (entry : String) : Session :=
  { session with calculator := { session.calculator with entry := entry, focused := true } }

theorem handle_key (session : Session) (key : Key) :
    session.handle (.press (.key key)) = session.withEntry (key.insert session.calculator.entry) :=
  rfl

theorem handle_delete (session : Session) :
    session.handle (.press .delete) = session.withEntry (deleteLast session.calculator.entry) :=
  rfl

theorem withEntry_withEntry (session : Session) (entry other : String) :
    (session.withEntry entry).withEntry other = session.withEntry other :=
  rfl

theorem withEntry_entry (session : Session) (entry : String) :
    (session.withEntry entry).calculator.entry = entry :=
  rfl

theorem pressAll_cons (session : Session) (button : Button) (buttons : List Button) :
    session.pressAll (button :: buttons) = (session.handle (.press button)).pressAll buttons :=
  rfl

theorem pressAll_keys (session : Session) (entry : String) (keys : List Key) :
    (session.withEntry entry).pressAll (keys.map .key) = session.withEntry (insertAll entry keys) := by
  induction keys generalizing entry with
  | nil => rfl
  | cons key keys ih =>
      rw [List.map_cons, pressAll_cons, handle_key, withEntry_withEntry, withEntry_entry, ih]
      rfl

theorem pressAll_deletes (session : Session) (entry : String) (count : Nat) :
    (session.withEntry entry).pressAll (List.replicate count .delete) =
      session.withEntry (deleteLast^[count] entry) := by
  induction count generalizing entry with
  | zero => rfl
  | succ count ih =>
      rw [List.replicate_succ, pressAll_cons, handle_delete, withEntry_withEntry, withEntry_entry, ih,
        Function.iterate_succ_apply]

theorem pressAll_pressed_keys (session : Session) {keys : List Key} (pressed : keys ≠ []) :
    session.pressAll (keys.map .key) =
      session.withEntry (insertAll session.calculator.entry keys) := by
  cases keys with
  | nil => exact absurd rfl pressed
  | cons key keys =>
      rw [List.map_cons, pressAll_cons, handle_key, pressAll_keys]
      rfl

/-- Keys, and then as many deletions as they wrote symbols, take no more from an entry than the spaces
at its end, and nothing else changes but the focus that every button gives. -/
theorem deletes_undo_keys (session : Session) (keys : List Key) (pressed : keys ≠ []) :
    let kept := dropTrailingSpaces session.calculator.entry
    (∃ count, session.calculator.entry.toList = kept.toList ++ List.replicate count ' ') ∧
    kept.toList.getLast? ≠ some ' ' ∧
    (session.pressAll (keys.map .key)).pressAll
        (List.replicate (keys.map Key.symbolCount).sum .delete) =
      { session with calculator := { session.calculator with entry := kept, focused := true } } := by
  intro kept
  have trimmed : kept.toList = trimSpaces session.calculator.entry.toList :=
    toList_dropTrailingSpaces session.calculator.entry
  refine ⟨?_, ?_, ?_⟩
  · rw [trimmed]
    exact exists_trimSpaces session.calculator.entry.toList
  · rw [trimmed]
    exact getLast?_trimSpaces session.calculator.entry.toList
  · rw [session.pressAll_pressed_keys pressed, pressAll_deletes,
      iterate_deleteLast_insertAll pressed, withEntry]

theorem deletes_undo_spaced_keys :
    let session : Session :=
      { calculator := { entry := "é 7  ", error := "division par zéro", digits := 12 }
        stepsShown := true }
    let keys : List Key := [.operator .subtract, .doubleZero, .closing, .operator .add]
    keys ≠ [] ∧ (keys.map Key.symbolCount).sum = 5 ∧
    (session.pressAll (keys.map .key)).calculator.entry = "é 7 - 00) + " ∧
    (session.pressAll (keys.map .key)).pressAll (List.replicate 5 .delete) =
      { session with calculator := { session.calculator with entry := "é 7" } } := by
  intro session keys
  have pressed : keys ≠ [] := by simp [keys]
  have kept : dropTrailingSpaces session.calculator.entry = "é 7" := by decide +kernel
  have undone := (deletes_undo_keys session keys pressed).2.2
  rw [kept] at undone
  exact ⟨pressed, rfl, by decide +kernel, undone⟩

end Session

end FractionCalculator
