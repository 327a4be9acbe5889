import FractionCalculator.Proofs.Lexing.Lookahead

/-!
Reading a text to its end, call after call. The calls are finitely many, each goes on from where the one
before it stopped, and what they take is all of the text but its blanks.
-/

namespace FractionCalculator

open Lexeme

namespace Cursor

def taken (cursor : Cursor) : List Char :=
  match cursor.consume.1 with
  | some token => token.text.toList
  | none => cursor.nextCharacter?.toList

theorem taken_of_blank {cursor : Cursor}
    (blank : ∀ character ∈ cursor.rest, isBlank character = true) : cursor.taken = [] := by
  simp only [taken, consume_of_blank blank, (nextCharacter?_eq_none_iff cursor).mpr blank,
    Option.toList_none]

namespace Ahead

variable {cursor : Cursor} {blanks run rest : List Char} {first : Char}
  (ahead : cursor.Ahead blanks first run rest)

include ahead

theorem taken : cursor.taken = first :: run := by
  rw [Cursor.taken, ahead.consume_token]
  cases known : (leading first run).token? with
  | some token => exact (ahead.recognised.token_of_known known).2.2
  | none =>
      obtain ⟨_, rfl⟩ := ahead.recognised.unknown_of_no_token known
      rw [ahead.nextCharacter?]
      rfl

theorem lexemesIn_rest : lexemesIn cursor.rest = leading first run :: lexemesIn rest := by
  rw [← map_lexeme_lexemes cursor.position, lexemes_of_read_some ahead.read, List.map_cons,
    map_lexeme_lexemes]

end Ahead

theorem exists_piece (cursor : Cursor) :
    ∃ blanks, (∀ character ∈ blanks, isBlank character = true) ∧
      (∀ character ∈ cursor.taken, isBlank character = false) ∧
        cursor.rest = blanks ++ (cursor.taken ++ cursor.consume.2.rest) := by
  rcases cursor.blank_or_ahead with blank | ⟨blanks, first, run, rest, ahead⟩
  · refine ⟨cursor.rest, blank, ?_, ?_⟩
    · simp [taken_of_blank blank]
    · rw [taken_of_blank blank, consume_of_blank blank, List.append_nil, List.append_nil]
  · refine ⟨blanks, ahead.blank, ?_, ?_⟩
    · rw [ahead.taken, List.forall_mem_cons]
      exact ⟨ahead.visible, fun character member =>
        isBlank_of_continues (ahead.goesOn character member)⟩
    · rw [ahead.taken, ahead.rest_consume, ahead.whole, List.cons_append]

theorem withoutBlanks_rest (cursor : Cursor) :
    withoutBlanks cursor.rest = cursor.taken ++ withoutBlanks cursor.consume.2.rest := by
  obtain ⟨blanks, blank, visible, whole⟩ := cursor.exists_piece
  have skipped : withoutBlanks blanks = [] := by
    simpa [withoutBlanks] using blank
  conv_lhs => rw [whole]
  rw [withoutBlanks, List.filter_append, List.filter_append]
  change withoutBlanks blanks ++ (withoutBlanks cursor.taken ++ _) = _
  rw [skipped, withoutBlanks_of_forall_not visible]
  rfl

theorem consume_shortens {cursor : Cursor} (more : cursor.rest ≠ []) :
    cursor.consume.2.rest.length < cursor.rest.length := by
  rcases cursor.blank_or_ahead with blank | ⟨blanks, first, run, rest, ahead⟩
  · rw [consume_of_blank blank]
    exact List.length_pos_of_ne_nil more
  · rw [ahead.rest_consume, ahead.whole]
    simp only [List.length_append, List.length_cons]
    omega

def callsToEnd (cursor : Cursor) : Nat :=
  if cursor.rest = [] then 0 else cursor.consume.2.callsToEnd + 1
termination_by cursor.rest.length
decreasing_by exact consume_shortens (by assumption)

def consuming (cursor : Cursor) (calls : Nat) : Cursor :=
  cursor.run (List.replicate calls .consume)

theorem consuming_succ (cursor : Cursor) (calls : Nat) :
    cursor.consuming (calls + 1) = cursor.consume.2.consuming calls :=
  rfl

theorem consume_of_nil {cursor : Cursor} (atEnd : cursor.rest = []) :
    cursor.consume = (none, ⟨cursor.position, []⟩) := by
  have blank : ∀ character ∈ cursor.rest, isBlank character = true := by simp [atEnd]
  rw [consume_of_blank blank, atEnd]
  rfl

theorem rest_consuming_of_nil {cursor : Cursor} (atEnd : cursor.rest = []) (calls : Nat) :
    (cursor.consuming calls).rest = [] := by
  induction calls generalizing cursor with
  | zero => exact atEnd
  | succ calls ih =>
      rw [consuming_succ, consume_of_nil atEnd]
      exact ih rfl

theorem lt_callsToEnd_iff (cursor : Cursor) (calls : Nat) :
    calls < cursor.callsToEnd ↔ (cursor.consuming calls).rest ≠ [] := by
  fun_induction callsToEnd cursor generalizing calls with
  | case1 cursor atEnd => simp [rest_consuming_of_nil atEnd]
  | case2 cursor more ih =>
      cases calls with
      | zero => exact iff_of_true (Nat.succ_pos _) more
      | succ calls => rw [Nat.add_lt_add_iff_right, consuming_succ, ih]

theorem flatMap_taken (cursor : Cursor) :
    (List.range cursor.callsToEnd).flatMap (fun calls => (cursor.consuming calls).taken) =
      withoutBlanks cursor.rest := by
  fun_induction callsToEnd cursor with
  | case1 cursor atEnd =>
      rw [atEnd]
      rfl
  | case2 cursor more ih =>
      rw [List.range_succ_eq_map, List.flatMap_cons, List.flatMap_map, withoutBlanks_rest, ← ih]
      rfl

def knownTokens (characters : List Char) : List (Option Token) :=
  ((lexemesIn characters).map Lexeme.token?).takeWhile Option.isSome

theorem knownTokens_of_none {cursor : Cursor} (noToken : cursor.consume.1 = none) :
    knownTokens cursor.rest = [] := by
  rcases cursor.blank_or_ahead with blank | ⟨blanks, first, run, rest, ahead⟩
  · rw [knownTokens, lexemesIn_blanks blank]
    rfl
  · rw [knownTokens, ahead.lexemesIn_rest, List.map_cons, ← ahead.consume_token, noToken]
    rfl

theorem knownTokens_of_some {cursor : Cursor} {token : Token}
    (found : cursor.consume.1 = some token) :
    knownTokens cursor.rest = some token :: knownTokens cursor.consume.2.rest := by
  obtain ⟨blanks, first, run, rest, ahead, known⟩ := ahead_of_token found
  rw [knownTokens, ahead.lexemesIn_rest, List.map_cons, known, ahead.rest_consume]
  rfl

theorem exists_known (cursor : Cursor) : ∃ known ≤ cursor.callsToEnd,
    knownTokens cursor.rest =
      (List.range known).map (fun calls => (cursor.consuming calls).consume.1) ∧
    (cursor.consuming known).consume.1 = none := by
  fun_induction callsToEnd cursor with
  | case1 cursor atEnd =>
      have noToken := congrArg Prod.fst (consume_of_nil atEnd)
      exact ⟨0, Nat.le_refl 0, knownTokens_of_none noToken, noToken⟩
  | case2 cursor more ih =>
      cases found : cursor.consume.1 with
      | none => exact ⟨0, Nat.zero_le _, knownTokens_of_none found, found⟩
      | some token =>
          obtain ⟨known, few, same, noToken⟩ := ih
          refine ⟨known + 1, Nat.succ_le_succ few, ?_, noToken⟩
          rw [knownTokens_of_some found, same, List.range_succ_eq_map, List.map_cons, List.map_map,
            ← found]
          rfl

/-- One call of `consume` that does not start at the end of a text. It goes on, but not past the end.
Behind some blanks it takes a piece of the text: a token that is as long as it can be, or a character
that no token begins with, or nothing where only blanks are left. -/
structure Consumes (characters : List Char) (cursor : Cursor) : Prop where
  advances : cursor.position < cursor.consume.2.position
  within : cursor.consume.2.position ≤ characters.length
  piece : ∃ blanks, (∀ character ∈ blanks, isBlank character = true) ∧
    characters.drop cursor.position =
      blanks ++ (cursor.taken ++ characters.drop cursor.consume.2.position)
  token : ∀ token, cursor.consume.1 = some token → token.Regular ∧
    ∀ next, characters[cursor.consume.2.position]? = some next → token.EndsBefore next
  noToken : cursor.consume.1 = none →
    (∀ character ∈ characters.drop cursor.position, isBlank character = true) ∨
      ∃ character, cursor.nextCharacter? = some character ∧ StartsNothing character

theorem StandsIn.consumes {characters : List Char} {cursor : Cursor}
    (stands : cursor.StandsIn characters) (more : cursor.rest ≠ []) :
    Consumes characters cursor := by
  have after := stands.consume
  have length := stands.length_eq
  have lengthAfter := after.length_eq
  have shorter := consume_shortens more
  constructor
  case advances => omega
  case within => omega
  case piece =>
    obtain ⟨blanks, blank, _, whole⟩ := cursor.exists_piece
    refine ⟨blanks, blank, ?_⟩
    rw [← stands.rest_eq, ← after.rest_eq]
    exact whole
  case token =>
    intro token found
    obtain ⟨blanks, first, run, rest, ahead, known⟩ := ahead_of_token found
    rw [← List.head?_drop, ← after.rest_eq, ahead.rest_consume]
    refine ⟨(ahead.recognised.token_of_known known).1, ?_⟩
    intro next isNext
    exact ahead.recognised.endsBefore known (ahead.ends next isNext)
  case noToken =>
    intro found
    rw [← stands.rest_eq]
    rcases cursor.blank_or_ahead with blank | ⟨blanks, first, run, rest, ahead⟩
    · exact .inl blank
    · rw [ahead.consume_token] at found
      exact .inr ⟨first, ahead.nextCharacter?, (ahead.recognised.unknown_of_no_token found).1⟩

end Cursor

open Cursor

/-- Calls of `consume` reach the end of a text after finitely many of them. Each takes a piece of the
text, and the pieces side by side are all of it but the blanks. The tokens of the text are those that
the first calls give, up to the first call that gives none. -/
theorem consume_partitions (text : String) : ∃ count,
    (∀ calls, calls < count ↔ ((start text).consuming calls).position < text.length) ∧
    (∀ calls < count, Consumes text.toList ((start text).consuming calls)) ∧
    (List.range count).flatMap (fun calls => ((start text).consuming calls).taken) =
      withoutBlanks text.toList ∧
    ∃ known ≤ count,
      tokensOf text =
        (List.range known).filterMap (fun calls => ((start text).consuming calls).consume.1) ∧
      (∀ calls < known, ((start text).consuming calls).consume.1.isSome = true) ∧
      ((start text).consuming known).consume.1 = none := by
  have stands (calls : Nat) : ((start text).consuming calls).StandsIn text.toList :=
    (standsIn_start text).run _
  refine ⟨(start text).callsToEnd, ?_, ?_, flatMap_taken (start text), ?_⟩
  · intro calls
    rw [lt_callsToEnd_iff, ← List.length_pos_iff, ← String.length_toList, (stands calls).length_eq,
      Nat.lt_add_right_iff_pos]
  · intro calls before
    exact (stands calls).consumes ((lt_callsToEnd_iff (start text) calls).mp before)
  · obtain ⟨known, few, same, noToken⟩ := (start text).exists_known
    refine ⟨known, few, ?_, ?_, noToken⟩
    · rw [tokensOf_eq]
      change (knownTokens (start text).rest).filterMap id = _
      rw [same, List.filterMap_map]
      rfl
    · intro calls earlier
      have member := List.mem_map_of_mem (f := fun calls => ((start text).consuming calls).consume.1)
        (List.mem_range.mpr earlier)
      rw [← same] at member
      exact List.mem_takeWhile_imp member

end FractionCalculator
