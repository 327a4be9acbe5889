import FractionCalculator.Operator

/-!
Tokens: a kind and the text that was read.
-/

namespace FractionCalculator

inductive TokenKind
  | number
  | operator
  | parenthesis
  | functionName
deriving DecidableEq, Repr

structure Token where
  kind : TokenKind
  text : String
deriving DecidableEq, Repr

def parentheses : List Char := ['(', ')']

def functionNames : List String := ["!", "E", "PI", "^", "cos", "ln", "log", "sin", "tan"]

def sortedFunctionNames : List String :=
  functionNames.mergeSort fun left right => decide (left ≤ right)

namespace Token

def ofCharacter (kind : TokenKind) (character : Char) : Token :=
  ⟨kind, String.singleton character⟩

def symbol? (token : Token) : Option Char :=
  match token.kind, token.text.toList with
  | .operator, [character] => some character
  | .parenthesis, [character] => some character
  | _, _ => none

def isSymbol (token : Token) (character : Char) : Bool :=
  token.symbol? == some character

def listing (tokens : List Token) : String :=
  " ".intercalate (tokens.map Token.text)

end Token

end FractionCalculator
