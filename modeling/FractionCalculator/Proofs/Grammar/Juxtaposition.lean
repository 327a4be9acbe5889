import Mathlib.Data.Finset.Max
import FractionCalculator.Proofs.Grammar.Completion

/-!
An operand beside a parenthesis is multiplied by it. A text means the same whether the `*` between them
is written or left out, at as many places as one likes.
-/

namespace FractionCalculator

open Awaited Lexeme

def Lexeme.endsOperand : Lexeme → Bool
  | .number _ | .closing => true
  | .operator _ | .opening | .name _ | .unknown _ => false

inductive Starred : Bool → List Lexeme → List Lexeme → Prop
  -- The flag is set where an operand ends right before the lists.
  | nil {operand} : Starred operand [] []
  | keep {operand lexeme rest other} : Starred (endsOperand lexeme) rest other →
      Starred operand (lexeme :: rest) (lexeme :: other)
  | star {rest other} : Starred false rest other →
      Starred true (.opening :: rest) (.operator .multiply :: .opening :: other)

namespace Starred

theorem same (lexemes : List Lexeme) (operand : Bool) : Starred operand lexemes lexemes := by
  induction lexemes generalizing operand with
  | nil => exact .nil
  | cons lexeme rest ih => exact .keep (ih lexeme.endsOperand)

theorem eq_nil {operand : Bool} {other : List Lexeme} (starred : Starred operand [] other) :
    other = [] := by
  cases starred
  rfl

theorem append_star {operand : Bool} {before other : List Lexeme}
    (starred : Starred operand before other)
    (ends : before.getLast?.any endsOperand = true) (after : List Lexeme) :
    Starred operand (before ++ .opening :: after)
      (other ++ .operator .multiply :: .opening :: after) := by
  induction starred with
  | nil => simp at ends
  | @keep operand lexeme rest other later ih =>
      cases rest with
      | nil =>
          obtain rfl := later.eq_nil
          have isOperand : lexeme.endsOperand = true := by simpa using ends
          refine .keep ?_
          rw [isOperand]
          exact .star (same after false)
      | cons next rest =>
          rw [List.getLast?_cons_cons] at ends
          exact .keep (ih ends)
  | @star rest other later ih =>
      cases rest with
      | nil => simp [endsOperand] at ends
      | cons next rest =>
          rw [List.getLast?_cons_cons] at ends
          exact .star (ih ends)

theorem split {operand : Bool} {before after other : List Lexeme}
    (starred : Starred operand (before ++ after) other) : ∃ front back last,
      other = front ++ back ∧ Starred operand before front ∧ Starred last after back := by
  induction before generalizing operand other with
  | nil => exact ⟨[], other, operand, rfl, .nil, starred⟩
  | cons lexeme before ih =>
      rw [List.cons_append] at starred
      cases starred with
      | keep later =>
          obtain ⟨front, back, last, rfl, early, late⟩ := ih later
          exact ⟨lexeme :: front, back, last, rfl, .keep early, late⟩
      | star later =>
          obtain ⟨front, back, last, rfl, early, late⟩ := ih later
          exact ⟨_, back, last, rfl, .star early, late⟩

end Starred

/-! With the places of some `*` known, there is a phrase that has them and means the same. -/

def SumPhrase.Restars (sum : SumPhrase) : Prop :=
  ∀ other, Starred false sum.lexemes other → ∃ phrase : SumPhrase,
    phrase.lexemes = other ∧ phrase.expression = sum.expression

def TermPhrase.Restars (term : TermPhrase) : Prop :=
  ∀ other, Starred false term.lexemes other → ∃ phrase : TermPhrase,
    phrase.lexemes = other ∧ phrase.expression = term.expression

def PrimaryPhrase.Restars (primary : PrimaryPhrase) : Prop :=
  ∀ other, Starred false primary.lexemes other → ∃ phrase : PrimaryPhrase,
    phrase.lexemes = other ∧ phrase.expression = primary.expression

theorem SumPhrase.Restars.enclosed {inside : SumPhrase} (restars : inside.Restars)
    {other : List Lexeme} (starred : Starred false (inside.lexemes ++ [.closing]) other) :
    ∃ phrase : SumPhrase, phrase.lexemes ++ [.closing] = other ∧
      phrase.expression = inside.expression := by
  obtain ⟨front, back, last, rfl, early, late⟩ := starred.split
  obtain ⟨phrase, rfl, meaning⟩ := restars front early
  cases late with
  | keep finished =>
      cases finished
      exact ⟨phrase, rfl, meaning⟩

mutual

theorem SumPhrase.restars : ∀ sum : SumPhrase, sum.Restars
  | .single term => by
      intro other starred
      obtain ⟨phrase, rfl, meaning⟩ := TermPhrase.restars term other starred
      exact ⟨.single phrase, rfl, meaning⟩
  | .chain left sign additive right => by
      intro other starred
      obtain ⟨front, back, last, rfl, early, late⟩ := starred.split
      obtain ⟨leftPhrase, rfl, leftMeaning⟩ := SumPhrase.restars left front early
      cases late with
      | keep late =>
          obtain ⟨rightPhrase, rfl, rightMeaning⟩ := TermPhrase.restars right _ late
          refine ⟨.chain leftPhrase sign additive rightPhrase, rfl, ?_⟩
          simp only [SumPhrase.expression, leftMeaning, rightMeaning]

theorem TermPhrase.restars : ∀ term : TermPhrase, term.Restars
  | .single primary => by
      intro other starred
      obtain ⟨phrase, rfl, meaning⟩ := PrimaryPhrase.restars primary other starred
      exact ⟨.single phrase, rfl, meaning⟩
  | .chain left sign multiplicative right => by
      intro other starred
      obtain ⟨front, back, last, rfl, early, late⟩ := starred.split
      obtain ⟨leftPhrase, rfl, leftMeaning⟩ := TermPhrase.restars left front early
      cases late with
      | keep late =>
          obtain ⟨rightPhrase, rfl, rightMeaning⟩ := PrimaryPhrase.restars right _ late
          refine ⟨.chain leftPhrase sign multiplicative rightPhrase, rfl, ?_⟩
          simp only [TermPhrase.expression, leftMeaning, rightMeaning]
  | .beside left inside => by
      intro other starred
      obtain ⟨front, back, last, rfl, early, late⟩ := starred.split
      obtain ⟨leftPhrase, rfl, leftMeaning⟩ := TermPhrase.restars left front early
      cases late with
      | keep late =>
          obtain ⟨insidePhrase, rfl, insideMeaning⟩ := (SumPhrase.restars inside).enclosed late
          refine ⟨.beside leftPhrase insidePhrase, rfl, ?_⟩
          simp only [TermPhrase.expression, leftMeaning, insideMeaning]
      | star late =>
          -- The written sign takes the parenthesis for a primary of its own.
          obtain ⟨insidePhrase, rfl, insideMeaning⟩ := (SumPhrase.restars inside).enclosed late
          refine ⟨.chain leftPhrase .multiply rfl (.grouped insidePhrase), rfl, ?_⟩
          simp only [TermPhrase.expression, PrimaryPhrase.expression, leftMeaning, insideMeaning]

theorem PrimaryPhrase.restars : ∀ primary : PrimaryPhrase, primary.Restars
  | .number digits => by
      intro other starred
      cases starred with
      | keep finished =>
          cases finished
          exact ⟨.number digits, rfl, rfl⟩
  | .negative digits => by
      intro other starred
      cases starred with
      | keep later =>
          cases later with
          | keep finished =>
              cases finished
              exact ⟨.negative digits, rfl, rfl⟩
  | .negated inside => by
      intro other starred
      cases starred with
      | keep later =>
          cases later with
          | keep late =>
              obtain ⟨phrase, rfl, meaning⟩ := (SumPhrase.restars inside).enclosed late
              refine ⟨.negated phrase, rfl, ?_⟩
              simp only [PrimaryPhrase.expression, meaning]
  | .grouped inside => by
      intro other starred
      cases starred with
      | keep late =>
          obtain ⟨phrase, rfl, meaning⟩ := (SumPhrase.restars inside).enclosed late
          exact ⟨.grouped phrase, rfl, meaning⟩

end

theorem step_endsOperand {awaited next : Awaited} {lexeme : Lexeme}
    (isOperand : lexeme.endsOperand = true) (led : awaited.step lexeme = some next) :
    ∃ opened, next = .continuation opened := by
  cases lexeme with
  | number digits =>
      cases awaited with
      | operand opened | magnitude opened => exact ⟨opened, (Option.some.inj led).symm⟩
      | continuation opened => simp [step] at led
  | closing =>
      cases awaited with
      | operand opened | magnitude opened => simp [step] at led
      | continuation opened =>
          cases opened with
          | zero => simp [step] at led
          | succ opened => exact ⟨opened, (Option.some.inj led).symm⟩
  | operator | opening | name | unknown => simp [endsOperand] at isOperand

theorem Starred.run {continues : Bool} {lexemes other : List Lexeme}
    (starred : Starred continues lexemes other) (awaited : Awaited)
    (due : continues = true → ∃ opened, awaited = .continuation opened) :
    awaited.run other = awaited.run lexemes := by
  induction starred generalizing awaited with
  | nil => rfl
  | @keep continues lexeme rest other _ ih =>
      rw [run_cons, run_cons]
      cases led : awaited.step lexeme with
      | none => rfl
      | some next => exact ih next fun isOperand => step_endsOperand isOperand led
  | @star rest other _ ih =>
      -- By way of `*` or at once, the parenthesis is entered at the same depth.
      obtain ⟨opened, rfl⟩ := due rfl
      have signed : (continuation opened).step (.operator .multiply) = some (.operand opened) := rfl
      have entered : (operand opened).step .opening = (continuation opened).step .opening := rfl
      rw [run_cons, signed, Option.bind_some, run_cons, run_cons, entered]
      cases (continuation opened).step .opening with
      | none => rfl
      | some next => exact ih next (by simp)

theorem Starred.parse {text other : String} {expression : Expression}
    (starred : Starred false (lexemesIn text.toList) (lexemesIn other.toList))
    (accepted : Expression.parse text = .ok expression) :
    Expression.parse other = .ok expression := by
  have led := (parse_isOk_iff text).mp ⟨expression, accepted⟩
  have otherLed := (starred.run (operand 0) (by simp)).trans led
  obtain ⟨phrase, spells, _, rfl⟩ := phrase_of_parse accepted
  rw [lexemesIn_of_spells spells] at starred
  obtain ⟨otherPhrase, same, meaning⟩ := phrase.restars _ starred
  rw [← meaning]
  refine parse_of_phrase same.symm ?_
  rw [same]
  exact nestsWithin_of_run otherLed

theorem Starred.parse_iff {text other : String}
    (starred : Starred false (lexemesIn text.toList) (lexemesIn other.toList))
    (expression : Expression) :
    Expression.parse text = .ok expression ↔ Expression.parse other = .ok expression := by
  refine ⟨starred.parse, fun accepted => ?_⟩
  have led := (parse_isOk_iff other).mp ⟨expression, accepted⟩
  rw [starred.run (operand 0) (by simp)] at led
  obtain ⟨original, read⟩ := (parse_isOk_iff text).mpr led
  rw [read, ← accepted, starred.parse read]

/-! The places where `*` may be written, and the text with it. -/

/-- A number or a closing parenthesis ends before the place, and an opening parenthesis comes next after
it. Blanks may stand on either side. -/
def Juxtaposes (characters : List Char) (place : ℕ) : Prop :=
  (lexemesIn (characters.take place)).getLast?.any endsOperand = true ∧
    ((characters.drop place).dropWhile isBlank).head? = some '('

structure Juxtapositions (characters : List Char) (places : Finset ℕ) : Prop where
  between : ∀ place ∈ places, Juxtaposes characters place
  apart : ∀ place ∈ places, ∀ later ∈ places, place < later →
    ∃ character ∈ (characters.take later).drop place, isBlank character = false

def starredAt (places : Finset ℕ) (characters : List Char) : List Char :=
  characters.zipIdx.flatMap fun (character, place) =>
    if place ∈ places then ['*', character] else [character]

theorem starredAt_empty (characters : List Char) : starredAt ∅ characters = characters := by
  simp [starredAt, ← List.map_eq_flatMap, List.zipIdx_map_fst]

theorem starredAt_insert {places : Finset ℕ} {last : ℕ} (greatest : ∀ place ∈ places, place < last)
    {before after : List Char} {next : Char} (length : before.length = last) :
    starredAt (insert last places) (before ++ next :: after) =
      starredAt places before ++ '*' :: next :: after := by
  subst length
  have early : ∀ entry ∈ before.zipIdx,
      (if entry.2 ∈ insert before.length places then ['*', entry.1] else [entry.1]) =
        if entry.2 ∈ places then ['*', entry.1] else [entry.1] := by
    intro entry member
    have bound : entry.2 ≠ before.length := (List.snd_lt_of_mem_zipIdx member).ne
    simp only [Finset.mem_insert, bound, false_or]
  have late : ∀ entry ∈ after.zipIdx (before.length + 1),
      (if entry.2 ∈ insert before.length places then ['*', entry.1] else [entry.1]) =
        [entry.1] := by
    intro entry member
    have bound := List.le_snd_of_mem_zipIdx member
    have outside : entry.2 ∉ insert before.length places := by
      rw [Finset.mem_insert]
      rintro (same | isPlace)
      · omega
      · have smaller := greatest _ isPlace
        omega
    rw [if_neg outside]
  rw [starredAt, List.zipIdx_append, List.flatMap_append, Nat.zero_add, List.zipIdx_cons,
    List.flatMap_cons, List.flatMap_congr early, List.flatMap_congr late,
    ← List.map_eq_flatMap, List.zipIdx_map_fst]
  simp [starredAt]

namespace Juxtaposes

variable {characters : List Char} {place : ℕ} (juxtaposes : Juxtaposes characters place)

include juxtaposes

theorem drop_eq : ∃ next rest, characters.drop place = next :: rest ∧
    ∀ last, joins last next = false := by
  have opens := juxtaposes.2
  cases after : characters.drop place with
  | nil => simp [after] at opens
  | cons next rest =>
      refine ⟨next, rest, rfl, ?_⟩
      by_cases blank : isBlank next = true
      · exact joins_blank_right blank
      · rw [after, List.dropWhile_cons_of_neg blank, List.head?_cons, Option.some.injEq] at opens
        subst opens
        exact joins_mark_right (by decide)

theorem length_take : (characters.take place).length = place := by
  obtain ⟨next, rest, after, _⟩ := juxtaposes.drop_eq
  have positive : 0 < (characters.drop place).length := by simp [after]
  rw [List.length_drop] at positive
  rw [List.length_take]
  omega

theorem lexemesIn_eq : ∃ others, lexemesIn (characters.drop place) = .opening :: others ∧
    lexemesIn characters = lexemesIn (characters.take place) ++ .opening :: others := by
  obtain ⟨next, rest, after, apart⟩ := juxtaposes.drop_eq
  obtain ⟨others, opens⟩ := List.head?_eq_some_iff.mp juxtaposes.2
  have parenthesis : lexemesIn (characters.drop place) = .opening :: lexemesIn others := by
    rw [← lexemesIn_dropWhile_isBlank, opens, lexemesIn_mark (by decide)]
    rfl
  refine ⟨lexemesIn others, parenthesis, ?_⟩
  conv_lhs => rw [← List.take_append_drop place characters]
  rw [lexemesIn_append, parenthesis]
  intro last _ first isFirst
  rw [after, List.head?_cons, Option.mem_some_iff] at isFirst
  subst isFirst
  exact apart last

end Juxtaposes

namespace Juxtapositions

variable {characters : List Char} {places : Finset ℕ} {last : ℕ}

theorem before_last (juxtapositions : Juxtapositions characters (insert last places))
    (greatest : ∀ place ∈ places, place < last) :
    Juxtapositions (characters.take last) places := by
  refine ⟨?_, ?_⟩
  · intro place member
    obtain ⟨ends, opens⟩ := juxtapositions.between place (Finset.mem_insert_of_mem member)
    obtain ⟨character, isBetween, visible⟩ := juxtapositions.apart place
      (Finset.mem_insert_of_mem member) last (Finset.mem_insert_self last places)
      (greatest place member)
    have inside : place ≤ (characters.take last).length := by
      have positive := List.length_pos_of_mem isBetween
      rw [List.length_drop] at positive
      omega
    refine ⟨?_, ?_⟩
    · rwa [List.take_take, min_eq_left (greatest place member).le]
    · -- What lies between the two places is not all blank, so it holds the parenthesis.
      have further : ((characters.take last).drop place).dropWhile isBlank ≠ [] := by
        rw [ne_eq, List.dropWhile_eq_nil_iff]
        intro blanks
        simp [blanks character isBetween] at visible
      obtain ⟨next, rest, begins⟩ := List.exists_cons_of_ne_nil further
      rw [← List.take_append_drop last characters, List.drop_append_of_le_length inside,
        List.dropWhile_append, begins] at opens
      rw [begins]
      exact opens
  · intro place member later laterMember earlier
    have separated := juxtapositions.apart place (Finset.mem_insert_of_mem member) later
      (Finset.mem_insert_of_mem laterMember) earlier
    rwa [List.take_take, min_eq_left (greatest later laterMember).le]

theorem starred (juxtapositions : Juxtapositions characters places) :
    Starred false (lexemesIn characters) (lexemesIn (starredAt places characters)) := by
  induction places using Finset.induction_on_max generalizing characters with
  | empty =>
      rw [starredAt_empty]
      exact .same _ false
  | insert last places greatest ih =>
      have juxtaposes := juxtapositions.between last (Finset.mem_insert_self last places)
      obtain ⟨next, rest, begins, _⟩ := juxtaposes.drop_eq
      obtain ⟨others, after, plain⟩ := juxtaposes.lexemesIn_eq
      have written : lexemesIn (starredAt (insert last places) characters) =
          lexemesIn (starredAt places (characters.take last)) ++
            .operator .multiply :: .opening :: others := by
        conv_lhs => rw [← List.take_append_drop last characters, begins]
        rw [starredAt_insert greatest juxtaposes.length_take, ← begins,
          lexemesIn_append_mark (by decide), after]
        rfl
      rw [plain, written]
      exact (ih (juxtapositions.before_last greatest)).append_star juxtaposes.1 others

end Juxtapositions

/-- Writing `*` at any places between an operand and the parenthesis beside it changes neither whether a
text is accepted nor what it is parsed to. -/
theorem juxtaposition_multiplies {text : String} {places : Finset ℕ}
    (juxtapositions : Juxtapositions text.toList places) (expression : Expression) :
    Expression.parse text = .ok expression ↔
      Expression.parse (String.ofList (starredAt places text.toList)) = .ok expression := by
  have starred := juxtapositions.starred
  rw [← String.toList_ofList (l := starredAt places text.toList)] at starred
  exact starred.parse_iff expression

theorem juxtaposition_multiplies_quotient :
    Juxtapositions "9/-2 (3)(4) (1-5(6))".toList {4, 12, 16} ∧
    String.ofList (starredAt {4, 12, 16} "9/-2 (3)(4) (1-5(6))".toList) =
      "9/-2* (3)(4) *(1-5*(6))" ∧
    ∃ expression, Expression.parse "9/-2 (3)(4) (1-5(6))" = .ok expression ∧
      Expression.parse "9/-2* (3)(4) *(1-5*(6))" = .ok expression ∧
      expression.text = "mul(mul(mul(div(9, -2), 3), 4), sub(1, mul(5, 6)))" := by
  have juxtapositions : Juxtapositions "9/-2 (3)(4) (1-5(6))".toList {4, 12, 16} := by
    refine ⟨?_, ?_⟩
    · intro place member
      simp only [Finset.mem_insert, Finset.mem_singleton] at member
      rcases member with rfl | rfl | rfl <;> exact ⟨by decide +kernel, by decide +kernel⟩
    · intro place member later laterMember earlier
      refine ⟨'(', ?_, by decide⟩
      revert earlier
      simp only [Finset.mem_insert, Finset.mem_singleton] at member laterMember
      rcases member with rfl | rfl | rfl <;> rcases laterMember with rfl | rfl | rfl <;> decide
  have written : String.ofList (starredAt {4, 12, 16} "9/-2 (3)(4) (1-5(6))".toList) =
      "9/-2* (3)(4) *(1-5*(6))" := by
    decide +kernel
  have read : Expression.parse "9/-2 (3)(4) (1-5(6))" = .ok
      (.binary .multiply (.binary .multiply (.binary .multiply
        (.binary .divide (.number "9") (.number "-2")) (.number "3")) (.number "4"))
        (.binary .subtract (.number "1") (.binary .multiply (.number "5") (.number "6")))) := by
    decide +kernel
  refine ⟨juxtapositions, written, _, read, ?_, by decide +kernel⟩
  rw [← written]
  exact (juxtaposition_multiplies juxtapositions _).mp read

end FractionCalculator
