import FractionCalculator.Proofs.Calculator.Display
import FractionCalculator.Proofs.Spelling
import FractionCalculator.Proofs.Text

/-!
The entry that the buttons write. It holds the symbols of the keys that were pressed, and spaces only
beside operators, so the spaces neither split a number nor keep two numbers apart.
-/

namespace FractionCalculator

def Event.symbols (symbols : List Char) : Event → List Char
  | .press (.key pressed) => symbols ++ pressed.text.toList
  | .press .delete => symbols.dropLast
  | .press .clearEntry | .press .reset | .escape => []
  | .press .clearOutcome | .press .equals | .toggleSteps | .enter | .precision _ | .redraw => symbols

def symbolsAfter (events : List Event) : List Char := events.foldl Event.symbols []

def Session.after (events : List Event) : Session := events.foldl Session.handle {}

def IsOperator (character : Char) : Prop := ∃ sign : Operator, character = sign.symbol

def withoutSpaces (entry : List Char) : List Char := entry.filter fun character => character != ' '

def trimSpaces (entry : List Char) : List Char :=
  dropTrailing (fun character => character == ' ') entry

/-- Every space has an operator right before it or right after it. -/
def SpacedByOperators (entry : List Char) : Prop :=
  ∀ before after, entry = before ++ ' ' :: after →
    (∃ last ∈ before.getLast?, IsOperator last) ∨ ∃ next ∈ after.head?, IsOperator next

structure EntryOf (symbols entry : List Char) : Prop where
  written : withoutSpaces entry = symbols
  begins : entry.head? ≠ some ' '
  spaced : SpacedByOperators entry

theorem withoutSpaces_append (before after : List Char) :
    withoutSpaces (before ++ after) = withoutSpaces before ++ withoutSpaces after :=
  List.filter_append before after

theorem withoutSpaces_nil : withoutSpaces [] = [] :=
  rfl

theorem withoutSpaces_space (rest : List Char) : withoutSpaces (' ' :: rest) = withoutSpaces rest :=
  rfl

theorem withoutSpaces_visible {character : Char} (visible : character ≠ ' ') (rest : List Char) :
    withoutSpaces (character :: rest) = character :: withoutSpaces rest :=
  List.filter_cons_of_pos (bne_iff_ne.mpr visible)

theorem withoutSpaces_of_not_mem {entry : List Char} (plain : ' ' ∉ entry) :
    withoutSpaces entry = entry := by
  rw [withoutSpaces, List.filter_eq_self]
  intro character member
  rw [bne_iff_ne]
  rintro rfl
  exact plain member

theorem not_isOperator_space : ¬IsOperator ' ' := by
  rintro ⟨sign, same⟩
  cases sign <;> simp [Operator.symbol] at same

theorem withoutSpaces_spaces {back : List Char}
    (spaces : ∀ character ∈ back, (character == ' ') = true) : withoutSpaces back = [] := by
  rw [withoutSpaces, List.filter_eq_nil_iff]
  intro character member
  simpa using spaces character member

theorem spacedByOperators_append {front back : List Char} (spaced : SpacedByOperators front)
    (later : ∀ before after, back = before ++ ' ' :: after →
      (∃ last ∈ (front ++ before).getLast?, IsOperator last) ∨
        ∃ next ∈ after.head?, IsOperator next) : SpacedByOperators (front ++ back) := by
  intro before after whole
  rw [List.append_eq_append_iff] at whole
  rcases whole with ⟨middle, rfl, inBack⟩ | ⟨middle, rfl, inFront⟩
  · exact later middle after inBack
  · cases middle with
    | nil => simpa using later [] after inFront.symm
    | cons head middle =>
        obtain ⟨rfl, rfl⟩ := List.cons.inj inFront
        rcases spaced before middle rfl with earlier | ⟨next, isNext, operator⟩
        · exact .inl earlier
        · exact .inr ⟨next, List.mem_head?_append_of_mem_head? isNext, operator⟩

namespace EntryOf

variable {symbols entry : List Char}

theorem empty : EntryOf [] [] := by
  refine ⟨rfl, by simp, ?_⟩
  intro before after whole
  simp at whole

theorem append (written : EntryOf symbols entry) {text : List Char} (plain : ' ' ∉ text) :
    EntryOf (symbols ++ text) (entry ++ text) := by
  refine ⟨?_, ?_, spacedByOperators_append written.spaced ?_⟩
  · rw [withoutSpaces_append, written.written, withoutSpaces_of_not_mem plain]
  · intro isSpace
    cases entry with
    | nil => exact plain (List.mem_of_mem_head? isSpace)
    | cons first rest => exact written.begins isSpace
  · rintro before after rfl
    exact absurd (by simp) plain

theorem initial {front back : List Char} (written : EntryOf symbols (front ++ back)) :
    EntryOf (withoutSpaces front) (trimSpaces front) ∧ (trimSpaces front).getLast? ≠ some ' ' := by
  obtain ⟨spaces, whole, allSpaces⟩ := dropTrailing_append (fun character => character == ' ') front
  have stops := getLast?_dropTrailing (fun character => character == ' ') front
  rw [trimSpaces]
  generalize dropTrailing (fun character => character == ' ') front = kept at whole stops ⊢
  have ends : kept.getLast? ≠ some ' ' := fun isLast => Bool.noConfusion (stops ' ' isLast)
  subst whole
  refine ⟨⟨?_, ?_, ?_⟩, ends⟩
  · rw [withoutSpaces_append, withoutSpaces_spaces allSpaces, List.append_nil]
  · intro isSpace
    exact written.begins
      (List.mem_head?_append_of_mem_head? (List.mem_head?_append_of_mem_head? isSpace))
  · rintro before after rfl
    cases after with
    | nil => simp at ends
    | cons next after =>
        rcases written.spaced before (next :: (after ++ spaces ++ back)) (by simp) with
          earlier | later
        · exact .inl earlier
        · exact .inr later

theorem dropSpaces (written : EntryOf symbols entry) :
    EntryOf symbols (trimSpaces entry) ∧ (trimSpaces entry).getLast? ≠ some ' ' := by
  rw [← entry.append_nil] at written
  have front := written.initial
  rw [← written.written, List.append_nil]
  exact front

theorem delete (written : EntryOf symbols entry) (ends : entry.getLast? ≠ some ' ') :
    EntryOf symbols.dropLast (trimSpaces entry.dropLast) := by
  rcases List.eq_nil_or_concat entry with rfl | ⟨front, last, rfl⟩
  · obtain rfl : [] = symbols := written.written
    exact empty
  · rw [List.concat_eq_append] at written ends ⊢
    have visible : ' ' ∉ [last] := by
      rw [List.mem_singleton]
      rintro rfl
      simp at ends
    rw [← written.written, withoutSpaces_append, withoutSpaces_of_not_mem visible,
      List.dropLast_concat, List.dropLast_concat]
    exact written.initial.1

theorem spaceAfterOperator (written : EntryOf symbols entry)
    (last : ∃ last ∈ entry.getLast?, IsOperator last) : EntryOf symbols (entry ++ [' ']) := by
  refine ⟨?_, ?_, spacedByOperators_append written.spaced ?_⟩
  · rw [withoutSpaces_append, written.written]
    exact List.append_nil symbols
  · cases entry with
    | nil => simp at last
    | cons first rest => exact written.begins
  · intro before after whole
    cases before with
    | nil => exact .inl (by simpa using last)
    | cons head before => simp at whole

theorem spacedOperator (written : EntryOf symbols entry) (nonempty : entry ≠ []) (sign : Operator) :
    EntryOf (symbols ++ [sign.symbol]) (entry ++ [' ', sign.symbol]) := by
  have visible : sign.symbol ≠ ' ' := fun same => not_isOperator_space ⟨sign, same.symm⟩
  refine ⟨?_, ?_, spacedByOperators_append written.spaced ?_⟩
  · rw [withoutSpaces_append, written.written]
    simp [withoutSpaces, visible]
  · cases entry with
    | nil => exact absurd rfl nonempty
    | cons first rest => exact written.begins
  · intro before after whole
    rcases before with _ | ⟨head, _ | ⟨next, before⟩⟩
    · obtain ⟨_, rfl⟩ := List.cons.inj whole
      exact .inr ⟨sign.symbol, rfl, sign, rfl⟩
    · simp [visible] at whole
    · simp at whole

theorem operator (written : EntryOf symbols entry) (sign : Operator) :
    EntryOf (symbols ++ [sign.symbol])
      ((if entry.isEmpty then entry else entry ++ [' ']) ++ [sign.symbol, ' ']) := by
  have visible : ' ' ∉ [sign.symbol] := by
    rw [List.mem_singleton]
    exact fun same => not_isOperator_space ⟨sign, same⟩
  by_cases nothing : entry = []
  · subst nothing
    exact (written.append visible).spaceAfterOperator ⟨sign.symbol, rfl, sign, rfl⟩
  · have last : ∃ last ∈ (entry ++ [' ', sign.symbol]).getLast?, IsOperator last :=
      ⟨sign.symbol, by simp, sign, rfl⟩
    have spaced := (written.spacedOperator nothing sign).spaceAfterOperator last
    simpa [nothing] using spaced

end EntryOf

theorem Key.text_visible (key : Key) : ∀ character ∈ key.text.toList, isBlank character = false := by
  have visible : (key.text.toList.all fun character => !isBlank character) = true := by
    cases key with
    | opening | closing | doubleZero | point => decide
    | operator sign => cases sign <;> decide
    | digit value =>
        revert value
        decide
  intro character member
  simpa using List.all_eq_true.mp visible character member

theorem not_mem_of_visible {text : List Char}
    (visible : ∀ character ∈ text, isBlank character = false) : ' ' ∉ text := by
  intro member
  exact absurd (visible ' ' member) (by decide)

theorem toList_dropTrailingSpaces (entry : String) :
    (dropTrailingSpaces entry).toList = trimSpaces entry.toList :=
  String.toList_ofList

theorem Key.insert_entryOf (key : Key) {symbols : List Char} {entry : String}
    (written : EntryOf symbols entry.toList) :
    EntryOf (symbols ++ key.text.toList) (key.insert entry).toList := by
  have plain := not_mem_of_visible key.text_visible
  have front := written.dropSpaces.1
  rw [← toList_dropTrailingSpaces] at front
  cases key with
  | opening | digit | doubleZero | point =>
      have added := written.append plain
      rw [← String.toList_append] at added
      exact added
  | closing =>
      have added := front.append plain
      rw [← String.toList_append] at added
      exact added
  | operator sign =>
      have added := front.operator sign
      by_cases nothing : dropTrailingSpaces entry = ""
      · simpa [insert, text, nothing] using added
      · simpa [insert, text, nothing] using added

theorem deleteLast_entryOf {symbols : List Char} {entry : String}
    (written : EntryOf symbols entry.toList) :
    EntryOf symbols.dropLast (deleteLast entry).toList := by
  obtain ⟨front, ends⟩ := written.dropSpaces
  rw [deleteLast, toList_dropTrailingSpaces, String.toList_ofList, toList_dropTrailingSpaces]
  exact front.delete ends

theorem Session.respond_entryOf {symbols : List Char} {calculator : Calculator}
    (written : EntryOf symbols calculator.entry.toList) (event : Event) :
    EntryOf (event.symbols symbols) (respond calculator event).entry.toList := by
  cases event with
  | press button =>
      cases button with
      | clearEntry | reset => exact .empty
      | clearOutcome => exact written
      | delete => exact deleteLast_entryOf written
      | equals =>
          rw [respond, Calculator.press, Calculator.calculate_entry]
          exact written
      | key pressed => exact pressed.insert_entryOf written
  | toggleSteps | redraw => exact written
  | escape => exact .empty
  | enter =>
      rw [respond]
      by_cases focused : calculator.focused = true
      · rw [if_pos focused, Calculator.calculate_entry]
        exact written
      · rw [if_neg focused]
        exact written
  | precision wanted =>
      rw [respond]
      by_cases same : clampDigits wanted = calculator.digits
      · rw [if_pos same]
        exact written
      · rw [if_neg same]
        exact written

theorem Session.foldl_handle_entryOf (events : List Event) {symbols : List Char} {session : Session}
    (written : EntryOf symbols session.calculator.entry.toList) :
    EntryOf (events.foldl Event.symbols symbols)
      (events.foldl handle session).calculator.entry.toList := by
  induction events generalizing symbols session with
  | nil => exact written
  | cons event events ih => exact ih (respond_entryOf written event)

theorem entryOf_after (events : List Event) :
    EntryOf (symbolsAfter events) (Session.after events).calculator.entry.toList :=
  Session.foldl_handle_entryOf events .empty

theorem Event.symbols_visible {symbols : List Char}
    (visible : ∀ character ∈ symbols, isBlank character = false) (event : Event) :
    ∀ character ∈ event.symbols symbols, isBlank character = false := by
  intro character member
  cases event with
  | press button =>
      cases button with
      | clearEntry | reset => exact absurd member List.not_mem_nil
      | clearOutcome | equals => exact visible character member
      | delete => exact visible character ((List.dropLast_sublist symbols).subset member)
      | key pressed =>
          rcases List.mem_append.mp member with earlier | new
          · exact visible character earlier
          · exact pressed.text_visible character new
  | escape => exact absurd member List.not_mem_nil
  | toggleSteps | enter | precision | redraw => exact visible character member

theorem symbolsAfter_visible (events : List Event) :
    ∀ character ∈ symbolsAfter events, isBlank character = false := by
  have start : ∀ character ∈ ([] : List Char), isBlank character = false := by simp
  rw [symbolsAfter]
  generalize ([] : List Char) = symbols at start
  induction events generalizing symbols with
  | nil => exact start
  | cons event events ih => exact ih _ (event.symbols_visible start)

end FractionCalculator
