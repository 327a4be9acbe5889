import FractionCalculator.Lexeme
import FractionCalculator.Text.Blank

/-!
A place in a text, from which lexemes are looked at and read one after the other.
-/

namespace FractionCalculator

structure Cursor where
  position : Nat
  rest : List Char
deriving DecidableEq, Repr

namespace Cursor

def start (text : String) : Cursor := ⟨0, text.toList⟩

def advance (cursor : Cursor) (count : Nat) : Cursor :=
  ⟨cursor.position + count, cursor.rest.drop count⟩

def skipBlanks (cursor : Cursor) : Cursor :=
  cursor.advance (cursor.rest.takeWhile isBlank).length

def nextPosition (cursor : Cursor) : Nat :=
  cursor.position + (cursor.rest.takeWhile isBlank).length

def nextCharacter? (cursor : Cursor) : Option Char :=
  cursor.rest.find? fun character => !isBlank character

/-- A token of one character that tells the kind of what comes next. Letters and unknown
characters look alike. -/
def peek (cursor : Cursor) : Option Token :=
  cursor.nextCharacter?.map fun character =>
    let kind : TokenKind :=
      if (Operator.ofSymbol? character).isSome then .operator
      else if parentheses.contains character then .parenthesis
      else if character.isDigit then .number
      else .functionName
    .ofCharacter kind character

def read (cursor : Cursor) : Option Located × Cursor :=
  let next := cursor.skipBlanks
  match next.rest with
  | [] => (none, next)
  | first :: rest =>
      let lexeme := Lexeme.leading first rest
      (some ⟨next.position, lexeme⟩, next.advance lexeme.text.length)

/-- The next token and the cursor after it. An unknown character gives no token and is passed. -/
def consume (cursor : Cursor) : Option Token × Cursor :=
  let (located, next) := cursor.read
  (located.bind fun located => located.lexeme.token?, next)

theorem read_shortens {cursor next : Cursor} {located : Located}
    (found : cursor.read = (some located, next)) : next.rest.length < cursor.rest.length := by
  unfold read at found
  simp only at found
  split at found
  · simp at found
  · rename_i first rest skipped
    obtain ⟨more, text, _⟩ := Lexeme.toList_text_leading first rest
    have positive : 0 < (Lexeme.leading first rest).text.length := by
      rw [← String.length_toList, text]
      simp
    have fewer : cursor.skipBlanks.rest.length ≤ cursor.rest.length := by
      simp [skipBlanks, advance]
    simp only [Prod.mk.injEq] at found
    rw [← found.2]
    simp only [advance, List.length_drop, skipped, List.length_cons] at fewer ⊢
    omega

def lexemesOnto (cursor : Cursor) (before : List Located) : List Located :=
  match _ : cursor.read with
  | (none, _) => before.reverse
  | (some located, next) => next.lexemesOnto (located :: before)
termination_by cursor.rest.length
decreasing_by exact read_shortens (by assumption)

end Cursor

def lexemesOf (text : String) : List Located :=
  (Cursor.start text).lexemesOnto []

def tokensOf (text : String) : List Token :=
  ((lexemesOf text).map fun located => located.lexeme.token?).takeWhile Option.isSome |>.filterMap id

end FractionCalculator
