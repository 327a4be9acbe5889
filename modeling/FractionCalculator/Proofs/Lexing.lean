import Mathlib.Data.List.Basic
import Mathlib.Data.List.TakeWhile
import FractionCalculator.Lexeme.Cursor
import FractionCalculator.Proofs.Text

/-!
How a text falls into lexemes. A lexeme is told by its first character and goes on for as long as it
can, so two texts side by side fall apart where no character joins the one before it.
-/

namespace FractionCalculator

namespace Lexeme

def marks : List Char := ['+', '-', '*', '/', '(', ')']

def continues (first character : Char) : Bool :=
  if first.isDigit then continuesNumber character else first.isAlpha && character.isAlpha

/-- Whether two neighbours may stand in one lexeme. -/
def joins (last next : Char) : Bool :=
  continuesNumber last && continuesNumber next || last.isAlpha && next.isAlpha

theorem symbol_mem_marks (sign : Operator) : sign.symbol ∈ marks := by
  cases sign <;> decide

theorem mark_standsAlone : ∀ mark ∈ marks, isBlank mark = false ∧ mark.isDigit = false ∧
    mark.isAlpha = false ∧ continuesNumber mark = false := by
  intro mark member
  simp only [marks, List.mem_cons, List.not_mem_nil, or_false] at member
  rcases member with rfl | rfl | rfl | rfl | rfl | rfl <;> decide

theorem continues_mark {first : Char} (mark : first ∈ marks) (character : Char) :
    continues first character = false := by
  obtain ⟨_, digit, letter, _⟩ := mark_standsAlone first mark
  simp [continues, digit, letter]

theorem eq_nil_of_continues_mark {first : Char} {run : List Char} (mark : first ∈ marks)
    (goesOn : ∀ character ∈ run, continues first character = true) : run = [] := by
  rw [List.eq_nil_iff_forall_not_mem]
  intro character member
  have stops := continues_mark mark character
  rw [goesOn character member] at stops
  exact Bool.noConfusion stops

theorem joins_mark_left {last : Char} (mark : last ∈ marks) (next : Char) :
    joins last next = false := by
  obtain ⟨_, _, letter, number⟩ := mark_standsAlone last mark
  simp [joins, letter, number]

theorem joins_comm (last next : Char) : joins last next = joins next last := by
  simp only [joins, Bool.and_comm]

theorem joins_mark_right {next : Char} (mark : next ∈ marks) (last : Char) :
    joins last next = false := by
  rw [joins_comm]
  exact joins_mark_left mark last

theorem code_of_continuesNumber {character : Char} (number : continuesNumber character = true) :
    46 ≤ character.toNat ∧ character.toNat ≤ 57 := by
  simp only [continuesNumber, Bool.or_eq_true, beq_iff_eq] at number
  rcases number with digit | rfl
  · have bounds := Char.isDigit_iff_toNat.mp digit
    have least : '0'.toNat = 48 := rfl
    have greatest : '9'.toNat = 57 := rfl
    omega
  · decide

theorem code_of_isAlpha {character : Char} (letter : character.isAlpha = true) :
    65 ≤ character.toNat ∧ character.toNat ≤ 122 := by
  have code : character.toNat = character.val.toNat := rfl
  rcases Bool.or_eq_true_iff.mp letter with upper | lower
  · obtain ⟨least, greatest⟩ := of_decide_eq_true upper
    have ends : 'A'.val.toNat = 65 ∧ 'Z'.val.toNat = 90 := by decide
    have above := UInt32.le_iff_toNat_le.mp least
    have below := UInt32.le_iff_toNat_le.mp greatest
    omega
  · obtain ⟨least, greatest⟩ := Bool.and_eq_true_iff.mp lower
    have ends : 'a'.val.toNat = 97 ∧ 'z'.val.toNat = 122 := by decide
    have above := UInt32.le_iff_toNat_le.mp (of_decide_eq_true least)
    have below := UInt32.le_iff_toNat_le.mp (of_decide_eq_true greatest)
    omega

theorem blank_standsApart {character : Char} (blank : isBlank character = true) :
    continuesNumber character = false ∧ character.isAlpha = false := by
  simp only [isBlank, blankRanges, List.any_cons, List.any_nil, Bool.or_false, Bool.or_eq_true,
    Bool.and_eq_true, decide_eq_true_eq] at blank
  constructor
  · rw [Bool.eq_false_iff]
    intro number
    have code := code_of_continuesNumber number
    omega
  · rw [Bool.eq_false_iff]
    intro letter
    have code := code_of_isAlpha letter
    omega

theorem joins_blank_left {last : Char} (blank : isBlank last = true) (next : Char) :
    joins last next = false := by
  obtain ⟨number, letter⟩ := blank_standsApart blank
  simp [joins, letter, number]

theorem joins_blank_right {next : Char} (blank : isBlank next = true) (last : Char) :
    joins last next = false := by
  rw [joins_comm]
  exact joins_blank_left blank last

theorem joins_of_continues {first : Char} {run : List Char} {next : Char}
    (goesOn : ∀ character ∈ run, continues first character = true)
    (further : continues first next = true) :
    ∀ last ∈ (first :: run).getLast?, joins last next = true := by
  intro last found
  have member : last ∈ first :: run := List.mem_of_getLast? found
  by_cases digit : first.isDigit = true
  · simp only [continues, digit, if_true] at goesOn further
    have number : continuesNumber last = true := by
      rcases List.mem_cons.mp member with rfl | later
      · simp [continuesNumber, digit]
      · exact goesOn last later
    simp [joins, number, further]
  · simp only [continues, digit, Bool.false_eq_true, if_false, Bool.and_eq_true] at goesOn further
    have letter : last.isAlpha = true := by
      rcases List.mem_cons.mp member with rfl | later
      · exact further.1
      · exact (goesOn last later).2
    simp [joins, letter, further.2]

theorem continues_digit {first : Char} (digit : first.isDigit = true) :
    continues first = continuesNumber := by
  funext character
  simp [continues, digit]

theorem continues_letter {first : Char} (digit : ¬first.isDigit = true)
    (letter : first.isAlpha = true) : continues first = Char.isAlpha := by
  funext character
  simp [continues, digit, letter]

theorem continues_other {first : Char} (digit : ¬first.isDigit = true)
    (letter : ¬first.isAlpha = true) : continues first = fun _ => false := by
  funext character
  simp [continues, digit, letter]

theorem takeWhile_continues_mark {first : Char} (mark : first ∈ marks) (rest : List Char) :
    rest.takeWhile (continues first) = [] := by
  cases rest with
  | nil => rfl
  | cons next rest => simp [continues_mark mark]

theorem toList_text_leading_eq (first : Char) (rest : List Char) :
    (leading first rest).text.toList = first :: rest.takeWhile (continues first) := by
  unfold leading
  cases found : Operator.ofSymbol? first with
  | some sign =>
      have symbol := (Operator.ofSymbol?_eq_some_iff first sign).mp found
      subst symbol
      simp [text, takeWhile_continues_mark (symbol_mem_marks sign)]
  | none =>
      simp only
      split
      · subst first
        have ends := takeWhile_continues_mark (by decide : '(' ∈ marks) rest
        simp [text, ends]
      split
      · subst first
        have ends := takeWhile_continues_mark (by decide : ')' ∈ marks) rest
        simp [text, ends]
      split
      · rename_i digit
        simp [text, continues_digit digit]
      split
      · rename_i digit letter
        simp [text, continues_letter digit letter]
      · rename_i digit letter
        cases rest <;> simp [text, continues_other digit letter]

theorem leading_congr {first : Char} {rest other : List Char}
    (same : rest.takeWhile (continues first) = other.takeWhile (continues first)) :
    leading first rest = leading first other := by
  unfold leading
  split
  · rfl
  split
  · rfl
  split
  · rfl
  split
  · rename_i digit
    rw [continues_digit digit] at same
    rw [same]
  split
  · rename_i digit letter
    rw [continues_letter digit letter] at same
    rw [same]
  · rfl

end Lexeme

namespace Cursor

open Lexeme

def lexemes (cursor : Cursor) : List Located := cursor.lexemesOnto []

theorem lexemesOnto_of_read_none {cursor next : Cursor} (found : cursor.read = (none, next))
    (before : List Located) : cursor.lexemesOnto before = before.reverse := by
  rw [lexemesOnto]
  split
  · rfl
  · rename_i read
    simp [found] at read

theorem lexemesOnto_of_read_some {cursor next : Cursor} {located : Located}
    (found : cursor.read = (some located, next)) (before : List Located) :
    cursor.lexemesOnto before = next.lexemesOnto (located :: before) := by
  rw [lexemesOnto]
  split
  · rename_i read
    simp [found] at read
  · rename_i read
    simp only [found, Prod.mk.injEq, Option.some.injEq] at read
    rw [read.1, read.2]

theorem lexemesOnto_append (cursor : Cursor) (before earlier : List Located) :
    cursor.lexemesOnto (before ++ earlier) = earlier.reverse ++ cursor.lexemesOnto before := by
  fun_induction lexemesOnto cursor before with
  | case1 cursor before next read =>
      rw [lexemesOnto_of_read_none read]
      simp
  | case2 cursor before located next read ih =>
      rw [lexemesOnto_of_read_some read, ← List.cons_append, ih]

theorem lexemes_of_read_none {cursor next : Cursor} (found : cursor.read = (none, next)) :
    cursor.lexemes = [] :=
  lexemesOnto_of_read_none found []

theorem lexemes_of_read_some {cursor next : Cursor} {located : Located}
    (found : cursor.read = (some located, next)) : cursor.lexemes = located :: next.lexemes := by
  rw [lexemes, lexemesOnto_of_read_some found]
  exact lexemesOnto_append next [] [located]

theorem read_nil (position : Nat) :
    (⟨position, []⟩ : Cursor).read = (none, ⟨position, []⟩) := by
  rfl

theorem read_blank {character : Char} (blank : isBlank character = true) (position : Nat)
    (rest : List Char) :
    (⟨position, character :: rest⟩ : Cursor).read = (⟨position + 1, rest⟩ : Cursor).read := by
  have same : (⟨position, character :: rest⟩ : Cursor).skipBlanks =
      (⟨position + 1, rest⟩ : Cursor).skipBlanks := by
    simp only [skipBlanks, advance, List.takeWhile_cons_of_pos blank, List.length_cons,
      List.drop_succ_cons, Cursor.mk.injEq, and_true]
    omega
  simp only [read, same]

theorem read_blanks {blanks : List Char} (blank : ∀ character ∈ blanks, isBlank character = true)
    (position : Nat) (rest : List Char) :
    (⟨position, blanks ++ rest⟩ : Cursor).read =
      (⟨position + blanks.length, rest⟩ : Cursor).read := by
  induction blanks generalizing position with
  | nil => rfl
  | cons character blanks ih =>
      obtain ⟨first, later⟩ := List.forall_mem_cons.mp blank
      rw [List.cons_append, read_blank first, ih later, List.length_cons, Nat.add_right_comm,
        Nat.add_assoc]

theorem read_first {first : Char} (visible : isBlank first = false) (position : Nat)
    (rest : List Char) :
    (⟨position, first :: rest⟩ : Cursor).read =
      (some ⟨position, leading first rest⟩,
        ⟨position + 1 + (rest.takeWhile (continues first)).length,
          rest.dropWhile (continues first)⟩) := by
  have stays : (⟨position, first :: rest⟩ : Cursor).skipBlanks = ⟨position, first :: rest⟩ := by
    simp [skipBlanks, advance, visible]
  have width : (leading first rest).text.length = (rest.takeWhile (continues first)).length + 1 := by
    rw [← String.length_toList, toList_text_leading_eq, List.length_cons]
  have remaining : rest.drop (rest.takeWhile (continues first)).length =
      rest.dropWhile (continues first) := by
    have whole : rest.takeWhile (continues first) ++ rest.dropWhile (continues first) = rest :=
      List.takeWhile_append_dropWhile
    exact (congrArg (List.drop _) whole.symm).trans List.drop_left
  simp only [read, stays, advance, width, List.drop_succ_cons, remaining, Prod.mk.injEq, true_and,
    Cursor.mk.injEq, and_true]
  omega

@[simp] theorem lexemes_nil (position : Nat) : (⟨position, []⟩ : Cursor).lexemes = [] :=
  lexemes_of_read_none (read_nil position)

theorem lexemes_blank {character : Char} (blank : isBlank character = true) (position : Nat)
    (rest : List Char) :
    (⟨position, character :: rest⟩ : Cursor).lexemes = (⟨position + 1, rest⟩ : Cursor).lexemes := by
  cases found : (⟨position + 1, rest⟩ : Cursor).read with
  | mk located next =>
      have same := (read_blank blank position rest).trans found
      cases located with
      | none => rw [lexemes_of_read_none same, lexemes_of_read_none found]
      | some located => rw [lexemes_of_read_some same, lexemes_of_read_some found]

theorem read_run {first : Char} {run rest : List Char} (visible : isBlank first = false)
    (goesOn : ∀ character ∈ run, continues first character = true)
    (ends : ∀ next ∈ rest.head?, continues first next = false) (position : Nat) :
    (⟨position, first :: (run ++ rest)⟩ : Cursor).read =
      (some ⟨position, leading first run⟩, ⟨position + 1 + run.length, rest⟩) := by
  have taken := takeWhile_append_of_ends goesOn ends
  have alone : run.takeWhile (continues first) = run := List.takeWhile_eq_self_iff.mpr goesOn
  rw [read_first visible position (run ++ rest), taken, dropWhile_append_of_ends goesOn ends,
    leading_congr (taken.trans alone.symm)]

theorem lexemes_run {first : Char} {run rest : List Char} (visible : isBlank first = false)
    (goesOn : ∀ character ∈ run, continues first character = true)
    (ends : ∀ next ∈ rest.head?, continues first next = false) (position : Nat) :
    (⟨position, first :: (run ++ rest)⟩ : Cursor).lexemes =
      ⟨position, leading first run⟩ :: (⟨position + 1 + run.length, rest⟩ : Cursor).lexemes :=
  lexemes_of_read_some (read_run visible goesOn ends position)

@[elab_as_elim]
theorem lexing_induction {motive : List Char → Prop} (nil : motive [])
    (blank : ∀ character rest, isBlank character = true → motive rest →
      motive (character :: rest))
    (lexeme : ∀ first run rest, isBlank first = false →
      (∀ character ∈ run, continues first character = true) →
      (∀ next ∈ rest.head?, continues first next = false) →
      motive rest → motive (first :: (run ++ rest)))
    (characters : List Char) : motive characters := by
  induction length : characters.length using Nat.strongRecOn generalizing characters with
  | ind length ih =>
      subst length
      cases characters with
      | nil => exact nil
      | cons first rest =>
          by_cases visible : isBlank first = true
          · exact blank first rest visible (ih rest.length (by simp) rest rfl)
          · have shorter := List.length_dropWhile_le (continues first) rest
            have after := ih (rest.dropWhile (continues first)).length
              (by simp only [List.length_cons]; omega) _ rfl
            rw [← List.takeWhile_append_dropWhile (p := continues first) (l := rest)]
            refine lexeme first _ _ (by simpa using visible) ?_ ?_ after
            · intro character member
              exact List.mem_takeWhile_imp member
            · intro next found
              have stops := List.head?_dropWhile_not (continues first) rest
              rw [Option.mem_def.mp found] at stops
              simpa using stops

theorem lexemes_shift (position offset : Nat) (characters : List Char) :
    (⟨position + offset, characters⟩ : Cursor).lexemes =
      (⟨position, characters⟩ : Cursor).lexemes.map fun located =>
        ⟨located.start + offset, located.lexeme⟩ := by
  induction characters using lexing_induction generalizing position with
  | nil => simp
  | blank character rest blank ih =>
      rw [lexemes_blank blank, lexemes_blank blank, ← ih, Nat.add_right_comm]
  | lexeme first run rest visible goesOn ends ih =>
      rw [lexemes_run visible goesOn ends, lexemes_run visible goesOn ends, List.map_cons, ← ih]
      congr 3
      omega

theorem lexemes_append {before after : List Char}
    (apart : ∀ last ∈ before.getLast?, ∀ next ∈ after.head?, joins last next = false)
    (position : Nat) :
    (⟨position, before ++ after⟩ : Cursor).lexemes =
      (⟨position, before⟩ : Cursor).lexemes ++
        (⟨position + before.length, after⟩ : Cursor).lexemes := by
  induction before using lexing_induction generalizing position with
  | nil => simp
  | blank character rest blank ih =>
      have later : ∀ last ∈ rest.getLast?, ∀ next ∈ after.head?, joins last next = false := by
        intro last found
        exact apart last (List.mem_getLast?_cons found)
      rw [List.cons_append, lexemes_blank blank, lexemes_blank blank, ih later, List.length_cons,
        Nat.add_right_comm, Nat.add_assoc]
  | lexeme first run rest visible goesOn ends ih =>
      have later : ∀ last ∈ rest.getLast?, ∀ next ∈ after.head?, joins last next = false := by
        intro last found
        exact apart last (List.mem_getLast?_cons (List.mem_getLast?_append_of_mem_getLast? found))
      have stillEnds : ∀ next ∈ (rest ++ after).head?, continues first next = false := by
        cases rest with
        | nil =>
            intro next found
            -- The first lexeme ends `before`, and would go on only with a character that joins it.
            rw [List.append_nil] at apart
            by_contra further
            obtain ⟨last, isLast⟩ := Option.ne_none_iff_exists'.mp
              (show (first :: run).getLast? ≠ none by simp)
            have joined := joins_of_continues goesOn (by simpa using further) last isLast
            rw [apart last isLast next found] at joined
            exact Bool.false_ne_true joined
        | cons next rest => simpa using ends
      rw [List.cons_append, List.append_assoc, lexemes_run visible goesOn stillEnds,
        lexemes_run visible goesOn ends, ih later, List.cons_append]
      congr 4
      simp only [List.length_cons, List.length_append]
      omega

/-- Where a lexeme begins, a text can be cut: what stands before falls into the earlier lexemes, and
goes on doing so whatever follows the first character of this one. -/
theorem lexemes_split {position : Nat} {characters : List Char} {before after : List Located}
    {located : Located}
    (found : (⟨position, characters⟩ : Cursor).lexemes = before ++ located :: after) :
    ∃ front first rest, characters = front ++ first :: rest ∧ isBlank first = false ∧
      located = ⟨position + front.length, leading first rest⟩ ∧
      (⟨position, front⟩ : Cursor).lexemes = before ∧
      ∀ other, (⟨position, front ++ first :: other⟩ : Cursor).lexemes =
        before ++ (⟨position + front.length, first :: other⟩ : Cursor).lexemes := by
  induction characters using lexing_induction generalizing position before with
  | nil => simp at found
  | blank character rest blank ih =>
      rw [lexemes_blank blank] at found
      obtain ⟨front, first, tail, whole, firstVisible, place, earlier, onward⟩ := ih found
      have moved : position + 1 + front.length = position + (character :: front).length := by
        simp only [List.length_cons]
        omega
      refine ⟨character :: front, first, tail, by rw [whole, List.cons_append], firstVisible,
        ?_, ?_, ?_⟩
      · rw [← moved]
        exact place
      · rw [lexemes_blank blank]
        exact earlier
      · intro other
        rw [List.cons_append, lexemes_blank blank, onward, moved]
  | lexeme head run rest visible goesOn ends ih =>
      rw [lexemes_run visible goesOn ends] at found
      cases before with
      | nil =>
          simp only [List.nil_append, List.cons.injEq] at found
          refine ⟨[], head, run ++ rest, rfl, visible, ?_, lexemes_nil position, fun other => rfl⟩
          have alone := List.takeWhile_eq_self_iff.mpr goesOn
          have whole := takeWhile_append_of_ends goesOn ends
          rw [← found.1, leading_congr (whole.trans alone.symm)]
          rfl
      | cons earliest before =>
          simp only [List.cons_append, List.cons.injEq] at found
          obtain ⟨front, first, tail, whole, firstVisible, place, earlier, onward⟩ := ih found.2
          have moved : position + 1 + run.length + front.length =
              position + (head :: (run ++ front)).length := by
            simp only [List.length_cons, List.length_append]
            omega
          have endsBefore (other : List Char) :
              ∀ next ∈ (front ++ first :: other).head?, continues head next = false := by
            subst whole
            cases front <;> exact ends
          have endsFront : ∀ next ∈ front.head?, continues head next = false := by
            intro next isNext
            exact endsBefore [] next (List.mem_head?_append_of_mem_head? isNext)
          refine ⟨head :: (run ++ front), first, tail, ?_, firstVisible, ?_, ?_, ?_⟩
          · rw [whole, List.cons_append, List.append_assoc]
          · rw [← moved]
            exact place
          · rw [lexemes_run visible goesOn endsFront, earlier, found.1]
          · intro other
            rw [List.cons_append, List.append_assoc,
              lexemes_run visible goesOn (endsBefore other), onward, moved, found.1,
              List.cons_append]

end Cursor

open Cursor Lexeme

def lexemesIn (characters : List Char) : List Lexeme :=
  (⟨0, characters⟩ : Cursor).lexemes.map Located.lexeme

theorem map_lexeme_lexemes (position : Nat) (characters : List Char) :
    (⟨position, characters⟩ : Cursor).lexemes.map Located.lexeme = lexemesIn characters := by
  have moved := lexemes_shift 0 position characters
  rw [Nat.zero_add] at moved
  simp [moved, lexemesIn]

theorem map_lexeme_lexemesOf (text : String) :
    (lexemesOf text).map Located.lexeme = lexemesIn text.toList :=
  rfl

@[simp] theorem lexemesIn_nil : lexemesIn [] = [] := by
  simp [lexemesIn]

theorem lexemesIn_blank {character : Char} (blank : isBlank character = true) (rest : List Char) :
    lexemesIn (character :: rest) = lexemesIn rest := by
  rw [lexemesIn, lexemes_blank blank, map_lexeme_lexemes]

theorem lexemesIn_first {first : Char} (visible : isBlank first = false) (rest : List Char) :
    lexemesIn (first :: rest) =
      leading first rest :: lexemesIn (rest.dropWhile (continues first)) := by
  rw [lexemesIn, lexemes_of_read_some (read_first visible 0 rest), List.map_cons,
    map_lexeme_lexemes]

theorem lexemesIn_run {first : Char} {run rest : List Char} (visible : isBlank first = false)
    (goesOn : ∀ character ∈ run, continues first character = true)
    (ends : ∀ next ∈ rest.head?, continues first next = false) :
    lexemesIn (first :: (run ++ rest)) = leading first run :: lexemesIn rest := by
  rw [lexemesIn, lexemes_run visible goesOn ends, List.map_cons, map_lexeme_lexemes]

theorem lexemesIn_append {before after : List Char}
    (apart : ∀ last ∈ before.getLast?, ∀ next ∈ after.head?, joins last next = false) :
    lexemesIn (before ++ after) = lexemesIn before ++ lexemesIn after := by
  rw [lexemesIn, lexemes_append apart, List.map_append, map_lexeme_lexemes, map_lexeme_lexemes]

theorem lexemesIn_blanks {characters : List Char}
    (blanks : ∀ character ∈ characters, isBlank character = true) : lexemesIn characters = [] := by
  induction characters with
  | nil => exact lexemesIn_nil
  | cons character rest ih =>
      rw [lexemesIn_blank (blanks character (by simp))]
      exact ih fun other member => blanks other (by simp [member])

theorem Cursor.lexemes_of_blanks {characters : List Char}
    (blanks : ∀ character ∈ characters, isBlank character = true) (position : Nat) :
    (⟨position, characters⟩ : Cursor).lexemes = [] := by
  rw [← List.map_eq_nil_iff (f := Located.lexeme), map_lexeme_lexemes, lexemesIn_blanks blanks]

theorem lexemesIn_dropWhile_isBlank (characters : List Char) :
    lexemesIn (characters.dropWhile isBlank) = lexemesIn characters := by
  induction characters with
  | nil => rfl
  | cons character rest ih =>
      by_cases blank : isBlank character = true
      · rw [List.dropWhile_cons_of_pos blank, ih, lexemesIn_blank blank]
      · rw [List.dropWhile_cons_of_neg blank]

theorem lexemesIn_dropTrailing_isBlank (characters : List Char) :
    lexemesIn (dropTrailing isBlank characters) = lexemesIn characters := by
  obtain ⟨trailing, whole, blanks⟩ := dropTrailing_append isBlank characters
  conv_rhs => rw [← whole]
  rw [lexemesIn_append, lexemesIn_blanks blanks, List.append_nil]
  intro last _ next isNext
  exact joins_blank_right (blanks next (List.mem_of_mem_head? isNext)) last

theorem lexemesIn_trimBlanks (text : String) :
    lexemesIn (trimBlanks text).toList = lexemesIn text.toList := by
  rw [trimBlanks, String.toList_ofList, lexemesIn_dropTrailing_isBlank,
    lexemesIn_dropWhile_isBlank]

theorem tokensOf_eq (text : String) :
    tokensOf text =
      (((lexemesIn text.toList).map Lexeme.token?).takeWhile Option.isSome).filterMap id := by
  rw [tokensOf, lexemesIn, List.map_map]
  rfl

theorem lexemesOf_split {text : String} {before after : List Located} {located : Located}
    (found : lexemesOf text = before ++ located :: after) :
    ∃ front first rest, text.toList = front ++ first :: rest ∧ isBlank first = false ∧
      located = ⟨front.length, leading first rest⟩ ∧
      lexemesIn front = before.map Located.lexeme ∧
      ∀ other, lexemesIn (front ++ first :: other) =
        before.map Located.lexeme ++ lexemesIn (first :: other) := by
  obtain ⟨front, first, rest, whole, visible, place, earlier, onward⟩ := lexemes_split found
  rw [Nat.zero_add] at place
  refine ⟨front, first, rest, whole, visible, place, ?_, ?_⟩
  · rw [lexemesIn, earlier]
  · intro other
    rw [lexemesIn, onward, List.map_append, map_lexeme_lexemes]

end FractionCalculator
