import FractionCalculator.Proofs.Evaluation.Failure
import FractionCalculator.Proofs.Evaluation.Lexemes
import FractionCalculator.Proofs.Grammar.Acceptance
import FractionCalculator.Proofs.Listing

/-!
The steps to a value tell the truth: the tokens that are listed are the text that was evaluated, and the
tree has the nodes that their numbers and signs call for.
-/

namespace FractionCalculator

namespace Expression

theorem size_eq_leaves (expression : Expression) :
    expression.size + 1 = 2 * expression.leaves.length := by
  induction expression with
  | literal token => rfl
  | binary operator left right leftIH rightIH =>
      rw [size, leaves, List.length_append]
      omega

end Expression

namespace Token

/-- The minus signs that negate a parenthesis: the next token is `(`, and what stands before is an
operator, `(` or nothing. The flag is set where the tokens before end in one of these. -/
def negations (operandDue : Bool) : List Token → Nat
  | [] => 0
  | token :: rest =>
      (if operandDue && token.isSymbol '-' && rest.head?.any (fun next => next.isSymbol '(') then 1
        else 0) + negations (token.kind = .operator ∨ token.isSymbol '(') rest

def leafCount (operandDue : Bool) (tokens : List Token) : Nat :=
  tokens.countP (fun token => token.kind = .number) + negations operandDue tokens

section LeafCount

variable (operandDue : Bool) (rest : List Token)

theorem leafCount_number (digits : String) :
    leafCount operandDue (⟨.number, digits⟩ :: rest) = 1 + leafCount false rest := by
  simp [leafCount, negations, isSymbol, symbol?, Nat.add_comm, Nat.add_left_comm]

theorem leafCount_opening :
    leafCount operandDue (.ofCharacter .parenthesis '(' :: rest) = leafCount true rest := by
  simp [leafCount, negations, isSymbol, symbol?, ofCharacter]

theorem leafCount_closing :
    leafCount operandDue (.ofCharacter .parenthesis ')' :: rest) = leafCount false rest := by
  simp [leafCount, negations, isSymbol, symbol?, ofCharacter]

theorem leafCount_operator (sign : Operator) :
    leafCount false (.ofCharacter .operator sign.symbol :: rest) = leafCount true rest := by
  simp [leafCount, negations, ofCharacter]

theorem leafCount_minus_number (digits : String) :
    leafCount operandDue (.ofCharacter .operator '-' :: ⟨.number, digits⟩ :: rest) =
      1 + leafCount false rest := by
  simp [leafCount, negations, isSymbol, symbol?, ofCharacter, Nat.add_comm, Nat.add_left_comm]

theorem leafCount_minus_opening :
    leafCount true (.ofCharacter .operator '-' :: .ofCharacter .parenthesis '(' :: rest) =
      1 + leafCount true (.ofCharacter .parenthesis '(' :: rest) := by
  rw [leafCount_opening]
  simp [leafCount, negations, isSymbol, symbol?, ofCharacter, Nat.add_left_comm]

end LeafCount

end Token

/-! A phrase has a leaf for each of its numbers and of its negated parentheses. -/

theorem leafCount_enclosed {lexemes : List Lexeme} {leaves : Nat}
    (inside : ∀ rest, Token.leafCount true (lexemes.filterMap Lexeme.token? ++ rest) =
      leaves + Token.leafCount false rest) (operandDue : Bool) (rest : List Token) :
    Token.leafCount operandDue
        ((.opening :: (lexemes ++ [.closing])).filterMap Lexeme.token? ++ rest) =
      leaves + Token.leafCount false rest := by
  simp only [Lexeme.token?, List.filterMap_cons, List.filterMap_append, List.filterMap_nil,
    List.append_assoc, List.cons_append, List.nil_append]
  rw [Token.leafCount_opening, inside, Token.leafCount_closing]

mutual

theorem SumPhrase.leafCount_tokens : ∀ (phrase : SumPhrase) (rest : List Token),
    Token.leafCount true (phrase.lexemes.filterMap Lexeme.token? ++ rest) =
      phrase.expression.leaves.length + Token.leafCount false rest
  | .single term, rest => TermPhrase.leafCount_tokens term rest
  | .chain left sign _ right, rest => by
      have onLeft := SumPhrase.leafCount_tokens left
      have onRight := TermPhrase.leafCount_tokens right rest
      simp only [SumPhrase.lexemes, SumPhrase.expression, Expression.leaves, Lexeme.token?,
        List.filterMap_append, List.filterMap_cons, List.append_assoc, List.cons_append,
        List.length_append]
      rw [onLeft, Token.leafCount_operator, onRight, Nat.add_assoc]

theorem TermPhrase.leafCount_tokens : ∀ (phrase : TermPhrase) (rest : List Token),
    Token.leafCount true (phrase.lexemes.filterMap Lexeme.token? ++ rest) =
      phrase.expression.leaves.length + Token.leafCount false rest
  | .single primary, rest => PrimaryPhrase.leafCount_tokens primary rest
  | .chain left sign _ right, rest => by
      have onLeft := TermPhrase.leafCount_tokens left
      have onRight := PrimaryPhrase.leafCount_tokens right rest
      simp only [TermPhrase.lexemes, TermPhrase.expression, Expression.leaves, Lexeme.token?,
        List.filterMap_append, List.filterMap_cons, List.append_assoc, List.cons_append,
        List.length_append]
      rw [onLeft, Token.leafCount_operator, onRight, Nat.add_assoc]
  | .beside left inside, rest => by
      have onLeft := TermPhrase.leafCount_tokens left
      have enclosed := leafCount_enclosed (SumPhrase.leafCount_tokens inside) false rest
      rw [TermPhrase.lexemes, TermPhrase.expression, Expression.leaves, List.filterMap_append,
        List.append_assoc, onLeft, enclosed, List.length_append, Nat.add_assoc]

theorem PrimaryPhrase.leafCount_tokens : ∀ (phrase : PrimaryPhrase) (rest : List Token),
    Token.leafCount true (phrase.lexemes.filterMap Lexeme.token? ++ rest) =
      phrase.expression.leaves.length + Token.leafCount false rest
  | .number digits, rest => Token.leafCount_number true rest digits
  | .negative digits, rest => Token.leafCount_minus_number true rest digits
  | .negated inside, rest => by
      have enclosed := leafCount_enclosed (SumPhrase.leafCount_tokens inside) true rest
      rw [PrimaryPhrase.expression, Expression.leaves, List.length_append, Nat.add_assoc, ← enclosed]
      exact Token.leafCount_minus_opening _
  | .grouped inside, rest => leafCount_enclosed (SumPhrase.leafCount_tokens inside) true rest

end

/-- The steps tell the truth about a solved text. Its tokens are all of it but the blanks. The tree has
a leaf for each number and each negated parenthesis, and as many nodes as that makes. The listing of
the tokens has the same evaluation, these steps included. -/
theorem steps_faithful {text : String} {places : Nat} {evaluation : Evaluation}
    (solved : Evaluation.ofText text places = .ok evaluation) :
    String.join ((tokensOf (trimBlanks text)).map Token.text) =
      String.ofList (withoutBlanks text.toList) ∧
    evaluation.steps.nodes + 1 =
      2 * ((tokensOf (trimBlanks text)).countP (fun token => token.kind = .number) +
        Token.negations true (tokensOf (trimBlanks text))) ∧
    Evaluation.ofText evaluation.steps.tokens places = .ok evaluation := by
  obtain ⟨expression, value, parsed, evaluated, rfl⟩ := Evaluation.ofText_eq_ok_iff.mp solved
  obtain ⟨phrase, spells, _, rfl⟩ := phrase_of_parse parsed
  obtain ⟨same, arithmetic⟩ := spells_iff.mp spells
  have known : ∀ lexeme ∈ lexemesIn (trimBlanks text).toList, lexeme.token?.isSome = true := by
    rw [same]
    exact fun lexeme member => token?_isSome_of_arithmetic (arithmetic lexeme member)
  have tokens := tokensOf_of_known known
  refine ⟨?_, ?_, ?_⟩
  · apply String.toList_injective
    rw [String.toList_join, String.toList_ofList, tokens, ← flatMap_text_lexemesIn,
      map_text_filterMap_token? known, List.flatMap_map, lexemesIn_trimBlanks]
  · have counted := phrase.leafCount_tokens []
    rw [List.append_nil, ← same, ← tokens] at counted
    change phrase.expression.nodeCount + 1 = 2 * Token.leafCount true (tokensOf (trimBlanks text))
    rw [Expression.nodeCount_eq_size, Expression.size_eq_leaves, counted]
    rfl
  · have relisted : lexemesIn (Token.listing (tokensOf (trimBlanks text))).toList =
        lexemesIn text.toList := by
      rw [Token.listing, tokens, map_text_filterMap_token? known, ← lexemesIn_trimBlanks text]
      exact lexemesIn_intercalate fun lexeme => readable_of_mem
    rcases Evaluation.ofText_of_same_lexemes relisted places with
      ⟨other, listed, found⟩ | ⟨_, _, _, failed, _⟩
    · rw [solved, Except.ok.injEq] at found
      subst found
      exact listed
    · simp [solved] at failed

theorem steps_negated_product : ∃ evaluation,
    Evaluation.ofText " 2--(1)(3)-4" 2 = .ok evaluation ∧ evaluation.steps.nodes = 9 ∧
    evaluation.steps.tokens = "2 - - ( 1 ) ( 3 ) - 4" ∧
    Evaluation.ofText "2 - - ( 1 ) ( 3 ) - 4" 2 = .ok evaluation := by
  have parsed : Expression.parse (trimBlanks " 2--(1)(3)-4") = .ok
      (.binary .subtract (.binary .subtract (.number "2")
        (.binary .multiply (.binary .multiply (.number "-1") (.number "1")) (.number "3")))
        (.number "4")) := by
    decide +kernel
  have evaluated : Expression.evaluate
      (.binary .subtract (.binary .subtract (.number "2")
        (.binary .multiply (.binary .multiply (.number "-1") (.number "1")) (.number "3")))
        (.number "4")) = .ok (.ofInt 1) := by
    decide +kernel
  have listing : Token.listing (tokensOf (trimBlanks " 2--(1)(3)-4")) =
      "2 - - ( 1 ) ( 3 ) - 4" := by
    decide +kernel
  have numbers : (tokensOf (trimBlanks " 2--(1)(3)-4")).countP
      (fun token => token.kind = .number) = 4 := by
    decide +kernel
  have negated : Token.negations true (tokensOf (trimBlanks " 2--(1)(3)-4")) = 1 := by
    decide +kernel
  have solved : Evaluation.ofText " 2--(1)(3)-4" 2 = .ok _ :=
    Evaluation.ofText_eq_ok_iff.mpr ⟨_, _, parsed, evaluated, rfl⟩
  obtain ⟨_, nodes, listed⟩ := steps_faithful solved
  rw [numbers, negated] at nodes
  refine ⟨_, solved, Nat.succ.inj nodes, listing, ?_⟩
  rw [← listing]
  exact listed

end FractionCalculator
