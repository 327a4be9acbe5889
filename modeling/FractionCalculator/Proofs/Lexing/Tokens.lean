import FractionCalculator.Proofs.Listing

/-!
The tokens that can be read. The kind of a token and its text tell each other: the first character
gives the kind, and the kind tells which characters go on. So a listing of tokens is read as the same
tokens again.
-/

namespace FractionCalculator

open Lexeme

namespace Token

/-- A token with a text that its kind can have. -/
inductive Regular : Token → Prop
  | operator (sign : Operator) : Regular (.ofCharacter .operator sign.symbol)
  | parenthesis {character} : character ∈ parentheses →
      Regular (.ofCharacter .parenthesis character)
  | number {first more} : first.isDigit = true →
      (∀ character ∈ more, character.isDigit = true ∨ character = '.') →
      Regular ⟨.number, String.ofList (first :: more)⟩
  | name {first more} : first.isAlpha = true →
      (∀ character ∈ more, character.isAlpha = true) →
      Regular ⟨.functionName, String.ofList (first :: more)⟩

def EndsBefore (token : Token) (next : Char) : Prop :=
  match token.kind with
  | .number => ¬(next.isDigit = true ∨ next = '.')
  | .functionName => ¬next.isAlpha = true
  | .operator | .parenthesis => True

end Token

def kindSeen (character : Char) : TokenKind :=
  if (Operator.ofSymbol? character).isSome then .operator
  else if parentheses.contains character then .parenthesis
  else if character.isDigit then .number
  else .functionName

section FirstCharacter

variable {first : Char}

theorem kindSeen_of_not_mem_marks (noMark : first ∉ marks) :
    kindSeen first = if first.isDigit then .number else .functionName := by
  have noParenthesis : first ∉ parentheses := by
    intro member
    exact noMark (List.mem_append_right ['+', '-', '*', '/'] member)
  simp [kindSeen, ofSymbol?_of_not_mem_marks noMark, noParenthesis]

theorem kindSeen_digit (digit : first.isDigit = true) : kindSeen first = .number := by
  rw [kindSeen_of_not_mem_marks (not_mem_marks_of_isDigit digit), if_pos digit]

theorem kindSeen_letter (letter : first.isAlpha = true) : kindSeen first = .functionName := by
  rw [kindSeen_of_not_mem_marks (not_mem_marks_of_isAlpha letter),
    isDigit_eq_false_of_isAlpha letter, if_neg Bool.false_ne_true]

theorem kindSeen_unknown (unknown : StartsNothing first) : kindSeen first = .functionName := by
  rw [kindSeen_of_not_mem_marks unknown.noMark, unknown.noDigit, if_neg Bool.false_ne_true]

end FirstCharacter

namespace Recognised

variable {first : Char} {run : List Char} {lexeme : Lexeme}

theorem token_of_known (recognised : Recognised first run lexeme) {token : Token}
    (known : lexeme.token? = some token) :
    token.Regular ∧ token.kind = kindSeen first ∧ token.text.toList = first :: run := by
  cases recognised with
  | operator sign =>
      obtain rfl := Option.some.inj known
      exact ⟨.operator sign, by cases sign <;> rfl, String.toList_singleton _⟩
  | opening =>
      obtain rfl := Option.some.inj known
      exact ⟨.parenthesis (by decide), rfl, rfl⟩
  | closing =>
      obtain rfl := Option.some.inj known
      exact ⟨.parenthesis (by decide), rfl, rfl⟩
  | number digit goesOn =>
      obtain rfl := Option.some.inj known
      exact ⟨.number digit goesOn, (kindSeen_digit digit).symm, String.toList_ofList⟩
  | name letter goesOn =>
      obtain rfl := Option.some.inj known
      exact ⟨.name letter goesOn, (kindSeen_letter letter).symm, String.toList_ofList⟩
  | unknown => simp [Lexeme.token?] at known

theorem unknown_of_no_token (recognised : Recognised first run lexeme)
    (noToken : lexeme.token? = none) : StartsNothing first ∧ run = [] := by
  cases recognised with
  | unknown unknown => exact ⟨unknown, rfl⟩
  | operator | opening | closing | number | name => simp [Lexeme.token?] at noToken

theorem endsBefore (recognised : Recognised first run lexeme) {token : Token}
    (known : lexeme.token? = some token) {next : Char} (ends : continues first next = false) :
    token.EndsBefore next := by
  cases recognised with
  | operator | opening | closing =>
      obtain rfl := Option.some.inj known
      trivial
  | number digit =>
      obtain rfl := Option.some.inj known
      rw [continues_digit digit] at ends
      intro further
      rw [(continuesNumber_iff next).mpr further] at ends
      exact Bool.noConfusion ends
  | name letter =>
      obtain rfl := Option.some.inj known
      rw [continues_letter (by simp [isDigit_eq_false_of_isAlpha letter]) letter] at ends
      exact Bool.eq_false_iff.mp ends
  | unknown => simp [Lexeme.token?] at known

end Recognised

/-! The regular tokens are those that can be read. -/

theorem Token.Regular.eq_ofCharacter {token : Token} (regular : token.Regular)
    (single : token.kind = .operator ∨ token.kind = .parenthesis) :
    ∃ character, token = .ofCharacter token.kind character := by
  cases regular with
  | operator sign => exact ⟨sign.symbol, rfl⟩
  | @parenthesis character => exact ⟨character, rfl⟩
  | number | name => simp at single

theorem Token.Regular.exists_leading {token : Token} (regular : token.Regular) :
    ∃ first run, isBlank first = false ∧ (∀ character ∈ run, continues first character = true) ∧
      (leading first run).token? = some token := by
  cases regular with
  | operator sign =>
      refine ⟨sign.symbol, [], (mark_standsAlone _ (symbol_mem_marks sign)).1, by simp, ?_⟩
      rw [leading_symbol]
      rfl
  | parenthesis member =>
      simp only [parentheses, List.mem_cons, List.not_mem_nil, or_false] at member
      rcases member with rfl | rfl
      · exact ⟨'(', [], by decide, by simp, rfl⟩
      · exact ⟨')', [], by decide, by simp, rfl⟩
  | @number first more digit goesOn =>
      have later : ∀ character ∈ more, continuesNumber character = true :=
        fun character member => (continuesNumber_iff character).mpr (goesOn character member)
      refine ⟨first, more, isBlank_eq_false_of_isDigit digit, ?_, ?_⟩
      · rwa [continues_digit digit]
      · rw [leading_number digit later]
        rfl
  | @name first more letter goesOn =>
      refine ⟨first, more, isBlank_eq_false_of_isAlpha letter, ?_, ?_⟩
      · rwa [continues_letter (Bool.eq_false_iff.mp (isDigit_eq_false_of_isAlpha letter)) letter]
      · rw [leading_name letter goesOn]
        rfl

theorem exists_readables {tokens : List Token} (regular : ∀ token ∈ tokens, token.Regular) :
    ∃ lexemes : List Lexeme, (∀ lexeme ∈ lexemes, lexeme.Readable) ∧
      (∀ lexeme ∈ lexemes, lexeme.token?.isSome = true) ∧
        lexemes.filterMap Lexeme.token? = tokens := by
  induction tokens with
  | nil => exact ⟨[], by simp, by simp, rfl⟩
  | cons token rest ih =>
      obtain ⟨first, later⟩ := List.forall_mem_cons.mp regular
      obtain ⟨lexemes, readable, known, same⟩ := ih later
      obtain ⟨character, run, visible, goesOn, here⟩ := first.exists_leading
      refine ⟨leading character run :: lexemes, ?_, ?_, ?_⟩
      · exact List.forall_mem_cons.mpr ⟨readable_leading visible goesOn, readable⟩
      · exact List.forall_mem_cons.mpr ⟨by rw [here, Option.isSome_some], known⟩
      · rw [List.filterMap_cons_some here, same]

theorem recognised_of_mem {characters : List Char} {lexeme : Lexeme}
    (member : lexeme ∈ lexemesIn characters) : ∃ first run, Recognised first run lexeme := by
  induction characters using Cursor.lexing_induction with
  | nil => simp at member
  | blank character rest blank ih =>
      rw [lexemesIn_blank blank] at member
      exact ih member
  | lexeme first run rest visible goesOn ends ih =>
      rw [lexemesIn_run visible goesOn ends] at member
      rcases List.mem_cons.mp member with rfl | later
      · exact ⟨first, run, recognised_leading goesOn⟩
      · exact ih later

theorem regular_of_mem_tokensOf {text : String} {token : Token} (member : token ∈ tokensOf text) :
    token.Regular := by
  rw [tokensOf_eq, List.mem_filterMap] at member
  obtain ⟨found, taken, rfl⟩ := member
  obtain ⟨lexeme, isIn, known⟩ := List.mem_map.mp ((List.takeWhile_prefix _).subset taken)
  obtain ⟨first, run, recognised⟩ := recognised_of_mem isIn
  exact (recognised.token_of_known known).1

theorem tokensOf_listing {tokens : List Token} (regular : ∀ token ∈ tokens, token.Regular) :
    tokensOf (Token.listing tokens) = tokens := by
  obtain ⟨lexemes, readable, known, rfl⟩ := exists_readables regular
  have relisted : lexemesIn (Token.listing (lexemes.filterMap Lexeme.token?)).toList = lexemes := by
    rw [Token.listing, map_text_filterMap_token? known]
    exact lexemesIn_intercalate readable
  rw [tokensOf_of_known (by rwa [relisted]), relisted]

/-- A listing of regular tokens is read as these tokens, whatever stands beside what. The tokens of a
text are regular, so listing them loses nothing. -/
theorem listing_readsBack :
    (∀ tokens : List Token, (∀ token ∈ tokens, token.Regular) →
      tokensOf (Token.listing tokens) = tokens) ∧
    ∀ text, tokensOf (Token.listing (tokensOf text)) = tokensOf text := by
  refine ⟨fun tokens => tokensOf_listing, ?_⟩
  intro text
  exact tokensOf_listing fun token => regular_of_mem_tokensOf

theorem listing_readsBack_neighbours : tokensOf "1.. 2 sin x ) -" =
    [⟨.number, "1.."⟩, ⟨.number, "2"⟩, ⟨.functionName, "sin"⟩, ⟨.functionName, "x"⟩,
      .ofCharacter .parenthesis ')', .ofCharacter .operator '-'] := by
  have regular : ∀ token ∈ [⟨.number, "1.."⟩, ⟨.number, "2"⟩, ⟨.functionName, "sin"⟩,
      ⟨.functionName, "x"⟩, .ofCharacter .parenthesis ')', .ofCharacter .operator '-'],
      Token.Regular token := by
    simp only [List.forall_mem_cons, List.not_mem_nil, false_imp_iff, implies_true, and_true]
    exact ⟨@Token.Regular.number '1' ['.', '.'] rfl (by simp),
      @Token.Regular.number '2' [] rfl (by simp),
      @Token.Regular.name 's' ['i', 'n'] rfl (by simp),
      @Token.Regular.name 'x' [] rfl (by simp), .parenthesis (by decide), .operator .subtract⟩
  exact listing_readsBack.1 _ regular

end FractionCalculator
