import FractionCalculator.Proofs.Lexing.Tokens

/-!
Looking ahead from a cursor and reading on from it. Both find the same next character, so a look tells
where the next token begins and of what kind it is, in every state that calls can lead to.
-/

namespace FractionCalculator

open Lexeme

namespace Cursor

structure Ahead (cursor : Cursor) (blanks : List Char) (first : Char) (run rest : List Char) :
    Prop where
  whole : cursor.rest = blanks ++ first :: (run ++ rest)
  blank : ∀ character ∈ blanks, isBlank character = true
  visible : isBlank first = false
  goesOn : ∀ character ∈ run, continues first character = true
  ends : ∀ next ∈ rest.head?, continues first next = false

theorem blank_or_ahead (cursor : Cursor) :
    (∀ character ∈ cursor.rest, isBlank character = true) ∨
      ∃ blanks first run rest, cursor.Ahead blanks first run rest := by
  rcases cutAt_cases (fun character => !isBlank character) cursor.rest with
    blank | ⟨blanks, first, after, whole, blank, visible⟩
  · left
    intro character member
    simpa using blank character member
  · refine .inr ⟨blanks, first, after.takeWhile (continues first),
      after.dropWhile (continues first), ?_, ?_, by simpa using visible, ?_, ?_⟩
    · rw [List.takeWhile_append_dropWhile]
      exact whole
    · intro character member
      simpa using blank character member
    · intro character member
      exact List.mem_takeWhile_imp member
    · intro next isNext
      have stops := List.head?_dropWhile_not (continues first) after
      rw [Option.mem_def.mp isNext] at stops
      simpa using stops

theorem nextCharacter?_eq_none_iff (cursor : Cursor) :
    cursor.nextCharacter? = none ↔ ∀ character ∈ cursor.rest, isBlank character = true := by
  simp [nextCharacter?]

theorem peek_eq_none_iff (cursor : Cursor) :
    cursor.peek = none ↔ ∀ character ∈ cursor.rest, isBlank character = true := by
  rw [peek, Option.map_eq_none_iff, nextCharacter?_eq_none_iff]

theorem nextPosition_eq_iff (cursor : Cursor) :
    cursor.nextPosition = cursor.position + cursor.rest.length ↔
      ∀ character ∈ cursor.rest, isBlank character = true := by
  rw [nextPosition, Nat.add_left_cancel_iff, ← List.takeWhile_eq_self_iff]
  constructor
  · exact (List.takeWhile_prefix isBlank).eq_of_length
  · exact congrArg List.length

theorem consume_of_blank {cursor : Cursor}
    (blank : ∀ character ∈ cursor.rest, isBlank character = true) :
    cursor.consume = (none, ⟨cursor.position + cursor.rest.length, []⟩) := by
  have found := read_blanks blank cursor.position []
  rw [List.append_nil, read_nil] at found
  simp only [consume, found]
  rfl

namespace Ahead

variable {cursor : Cursor} {blanks run rest : List Char} {first : Char}
  (ahead : cursor.Ahead blanks first run rest)

include ahead

theorem recognised : Recognised first run (leading first run) := recognised_leading ahead.goesOn

theorem nextCharacter? : cursor.nextCharacter? = some first := by
  have skipped : blanks.find? (fun character => !isBlank character) = none := by
    simpa using ahead.blank
  rw [Cursor.nextCharacter?, ahead.whole, List.find?_append, skipped, Option.none_or,
    List.find?_cons_of_pos]
  simp [ahead.visible]

theorem nextPosition : cursor.nextPosition = cursor.position + blanks.length := by
  rw [Cursor.nextPosition, ahead.whole, List.takeWhile_append_of_pos ahead.blank,
    List.takeWhile_cons_of_neg (by simp [ahead.visible]), List.append_nil]

theorem peek : cursor.peek = some (.ofCharacter (kindSeen first) first) := by
  rw [Cursor.peek, ahead.nextCharacter?]
  rfl

theorem read : cursor.read = (some ⟨cursor.position + blanks.length, leading first run⟩,
    ⟨cursor.position + blanks.length + 1 + run.length, rest⟩) := by
  have found := read_blanks ahead.blank cursor.position (first :: (run ++ rest))
  rw [read_run ahead.visible ahead.goesOn ahead.ends, ← ahead.whole] at found
  exact found

theorem consume : cursor.consume = ((leading first run).token?,
    ⟨cursor.position + blanks.length + 1 + run.length, rest⟩) := by
  simp only [Cursor.consume, ahead.read]
  rfl

theorem consume_token : cursor.consume.1 = (leading first run).token? :=
  congrArg Prod.fst ahead.consume

theorem rest_consume : cursor.consume.2.rest = rest :=
  congrArg (fun result => result.2.rest) ahead.consume

end Ahead

theorem ahead_of_token {cursor : Cursor} {token : Token} (found : cursor.consume.1 = some token) :
    ∃ blanks first run rest, cursor.Ahead blanks first run rest ∧
      (leading first run).token? = some token := by
  rcases cursor.blank_or_ahead with blank | ⟨blanks, first, run, rest, ahead⟩
  · simp [consume_of_blank blank] at found
  · exact ⟨blanks, first, run, rest, ahead, ahead.consume_token.symm.trans found⟩

def StandsIn (cursor : Cursor) (characters : List Char) : Prop :=
  ∃ before, characters = before ++ cursor.rest ∧ cursor.position = before.length

theorem standsIn_start (text : String) : (start text).StandsIn text.toList := ⟨[], rfl, rfl⟩

namespace StandsIn

variable {cursor : Cursor} {characters : List Char} (stands : cursor.StandsIn characters)

include stands

theorem rest_eq : cursor.rest = characters.drop cursor.position := by
  obtain ⟨before, rfl, place⟩ := stands
  rw [place, List.drop_left]

theorem length_eq : characters.length = cursor.position + cursor.rest.length := by
  obtain ⟨before, rfl, place⟩ := stands
  rw [place, List.length_append]

theorem advance {passed rest : List Char} (whole : cursor.rest = passed ++ rest) :
    StandsIn ⟨cursor.position + passed.length, rest⟩ characters := by
  obtain ⟨before, rfl, place⟩ := stands
  refine ⟨before ++ passed, ?_, ?_⟩
  · rw [whole, List.append_assoc]
  · rw [place, List.length_append]

theorem consume : cursor.consume.2.StandsIn characters := by
  rcases cursor.blank_or_ahead with blank | ⟨blanks, first, run, rest, ahead⟩
  · rw [consume_of_blank blank]
    exact stands.advance (List.append_nil _).symm
  · have passed : cursor.rest = (blanks ++ first :: run) ++ rest := by
      rw [ahead.whole, List.append_assoc, List.cons_append]
    have moved := stands.advance passed
    rw [List.length_append, List.length_cons, ← Nat.add_assoc, ← Nat.add_assoc,
      Nat.add_right_comm] at moved
    rwa [ahead.consume]

end StandsIn

inductive Call
  | consume
  | peek
  | position
  | nextPosition
  | nextCharacter
deriving DecidableEq, Repr

inductive Answer
  | token (token : Option Token)
  | position (position : Nat)
  | character (character : Option Char)
deriving DecidableEq, Repr

def call (cursor : Cursor) : Call → Answer × Cursor
  | .consume => (.token cursor.consume.1, cursor.consume.2)
  | .peek => (.token cursor.peek, cursor)
  | .position => (.position cursor.position, cursor)
  | .nextPosition => (.position cursor.nextPosition, cursor)
  | .nextCharacter => (.character cursor.nextCharacter?, cursor)

def run (cursor : Cursor) (calls : List Call) : Cursor :=
  calls.foldl (fun cursor call => (cursor.call call).2) cursor

theorem StandsIn.call {cursor : Cursor} {characters : List Char}
    (stands : cursor.StandsIn characters) (asked : Call) :
    (cursor.call asked).2.StandsIn characters := by
  cases asked with
  | consume => exact stands.consume
  | peek | position | nextPosition | nextCharacter => exact stands

theorem StandsIn.run {cursor : Cursor} {characters : List Char}
    (stands : cursor.StandsIn characters) (calls : List Call) :
    (cursor.run calls).StandsIn characters := by
  induction calls generalizing cursor with
  | nil => exact stands
  | cons asked calls ih => exact ih (stands.call asked)

/-- What a look ahead tells about the next character of a text and about the next call of `consume`. -/
structure Foretells (characters : List Char) (cursor : Cursor) (seen : Token) (character : Char) :
    Prop where
  text : seen.text = String.singleton character
  nextCharacter? : cursor.nextCharacter? = some character
  nextPosition : characters[cursor.nextPosition]? = some character
  skipped : ∃ blanks, (∀ blank ∈ blanks, isBlank blank = true) ∧
    characters.drop cursor.position = blanks ++ characters.drop cursor.nextPosition
  token : ∀ token next, cursor.consume = (some token, next) →
    token.kind = seen.kind ∧ token.text.toList.head? = some character ∧
      (token.kind = .operator ∨ token.kind = .parenthesis → token = seen) ∧
      characters.drop cursor.nextPosition = token.text.toList ++ characters.drop next.position
  unknown : ∀ next, cursor.consume = (none, next) →
    seen.kind = .functionName ∧ StartsNothing character ∧
      next.position = cursor.nextPosition + 1

theorem foretells_of_ahead {cursor : Cursor} {characters blanks run rest : List Char} {first : Char}
    (stands : cursor.StandsIn characters) (ahead : cursor.Ahead blanks first run rest) :
    Foretells characters cursor (.ofCharacter (kindSeen first) first) first := by
  have here : characters.drop cursor.position = blanks ++ first :: (run ++ rest) := by
    rw [← stands.rest_eq, ahead.whole]
  have there : characters.drop cursor.nextPosition = first :: (run ++ rest) := by
    rw [ahead.nextPosition, ← List.drop_drop, here, List.drop_left]
  constructor
  case text => rfl
  case nextCharacter? => exact ahead.nextCharacter?
  case nextPosition =>
    rw [← List.head?_drop, there]
    rfl
  case skipped => exact ⟨blanks, ahead.blank, by rw [here, there]⟩
  case token =>
    intro token next consumed
    have after := stands.consume.rest_eq
    rw [consumed] at after
    rw [ahead.consume] at consumed
    obtain ⟨known, rfl⟩ := Prod.mk.inj consumed
    obtain ⟨regular, kind, text⟩ := ahead.recognised.token_of_known known
    refine ⟨kind, by rw [text]; rfl, ?_, ?_⟩
    · intro isMark
      obtain ⟨character, whole⟩ := regular.eq_ofCharacter isMark
      rw [whole, Token.ofCharacter, String.toList_singleton] at text
      obtain ⟨rfl, _⟩ := List.cons.inj text
      rw [whole, kind]
    · rw [there, ← after, text]
      rfl
  case unknown =>
    intro next consumed
    rw [ahead.consume] at consumed
    obtain ⟨noToken, rfl⟩ := Prod.mk.inj consumed
    obtain ⟨unknown, rfl⟩ := ahead.recognised.unknown_of_no_token noToken
    refine ⟨kindSeen_unknown unknown, unknown, ?_⟩
    rw [ahead.nextPosition]
    rfl

/-- In every state that calls can lead to, only `consume` moves on, and a look ahead finds nothing only
where nothing but blanks is left. Otherwise it shows the character that `consume` begins with and the
kind of its token, or else a name where there is no token. -/
theorem peek_foretells (text : String) (calls : List Call) :
    let cursor := (start text).run calls
    (∀ asked, asked ≠ .consume → (cursor.call asked).2 = cursor) ∧
    (cursor.peek = none ↔
      ∀ character ∈ text.toList.drop cursor.position, isBlank character = true) ∧
    (cursor.peek = none ↔ cursor.nextCharacter? = none) ∧
    (cursor.peek = none ↔ cursor.nextPosition = text.length) ∧
    ∀ seen, cursor.peek = some seen →
      ∃ character, Foretells text.toList cursor seen character := by
  intro cursor
  have stands : cursor.StandsIn text.toList := (standsIn_start text).run calls
  rw [← stands.rest_eq, ← String.length_toList, stands.length_eq, nextPosition_eq_iff,
    nextCharacter?_eq_none_iff, peek_eq_none_iff]
  refine ⟨?_, Iff.rfl, Iff.rfl, Iff.rfl, ?_⟩
  · intro asked moves
    cases asked with
    | consume => exact absurd rfl moves
    | peek | position | nextPosition | nextCharacter => rfl
  · intro seen found
    rcases cursor.blank_or_ahead with blank | ⟨blanks, first, run, rest, ahead⟩
    · rw [(peek_eq_none_iff cursor).mpr blank] at found
      simp at found
    · rw [ahead.peek] at found
      obtain rfl := Option.some.inj found
      exact ⟨first, foretells_of_ahead stands ahead⟩

end Cursor

end FractionCalculator
