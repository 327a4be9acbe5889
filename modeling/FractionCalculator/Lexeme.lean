import FractionCalculator.Token

/-!
Lexemes: the pieces that a text falls into once its blanks are left out.
-/

namespace FractionCalculator

inductive Lexeme
  | number (digits : String)
  | operator (sign : Operator)
  | opening
  | closing
  | name (letters : String)
  | unknown (character : Char)
deriving DecidableEq, Repr

namespace Lexeme

def text : Lexeme → String
  | .number digits => digits
  | .operator sign => String.singleton sign.symbol
  | .opening => "("
  | .closing => ")"
  | .name letters => letters
  | .unknown character => String.singleton character

def token? : Lexeme → Option Token
  | .number digits => some ⟨.number, digits⟩
  | .operator sign => some (.ofCharacter .operator sign.symbol)
  | .opening => some (.ofCharacter .parenthesis '(')
  | .closing => some (.ofCharacter .parenthesis ')')
  | .name letters => some ⟨.functionName, letters⟩
  | .unknown _ => none

def lead (lexeme : Lexeme) : String :=
  String.ofList (lexeme.text.toList.take 1)

def continuesNumber (character : Char) : Bool :=
  character.isDigit || character == '.'

/-- The longest lexeme at the front of a text that begins with a character that is not blank. -/
def leading (first : Char) (rest : List Char) : Lexeme :=
  match Operator.ofSymbol? first with
  | some sign => .operator sign
  | none =>
      if first = '(' then
        .opening
      else if first = ')' then
        .closing
      else if first.isDigit then
        .number (String.ofList (first :: rest.takeWhile continuesNumber))
      else if first.isAlpha then
        .name (String.ofList (first :: rest.takeWhile Char.isAlpha))
      else
        .unknown first

theorem toList_text_leading (first : Char) (rest : List Char) :
    ∃ more, (leading first rest).text.toList = first :: more ∧ more <+: rest := by
  unfold leading
  cases found : Operator.ofSymbol? first with
  | some operator =>
      have symbol := (Operator.ofSymbol?_eq_some_iff first operator).mp found
      exact ⟨[], by simp [text, symbol], List.nil_prefix⟩
  | none =>
      simp only
      split
      · exact ⟨[], by simp [text, *], List.nil_prefix⟩
      split
      · exact ⟨[], by simp [text, *], List.nil_prefix⟩
      split
      · exact ⟨rest.takeWhile continuesNumber, by simp [text], List.takeWhile_prefix _⟩
      split
      · exact ⟨rest.takeWhile Char.isAlpha, by simp [text], List.takeWhile_prefix _⟩
      · exact ⟨[], by simp [text], List.nil_prefix⟩

end Lexeme

structure Located where
  start : Nat
  lexeme : Lexeme
deriving DecidableEq, Repr

end FractionCalculator
