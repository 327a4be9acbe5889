import FractionCalculator.Text.Cut

/-!
Decimal literals: a whole mantissa over a power of ten, read from texts such as `-2.50` or `25e-2`.
-/

namespace FractionCalculator

/-- The number `mantissa / 10 ^ scale`, with its spelling: `2.5` and `2.50` are two literals. -/
structure DecimalLiteral where
  mantissa : Int
  scale : Nat
deriving DecidableEq, Repr

namespace DecimalLiteral

def maximumExponent : Nat := 10000

def maximumScale : Nat := Nat.pow 2 32 - 1

def takeSign : List Char → Bool × List Char
  | '-' :: rest => (true, rest)
  | '+' :: rest => (false, rest)
  | characters => (false, characters)

def signed (negative : Bool) (magnitude : Nat) : Int :=
  if negative then -magnitude else magnitude

def readDigits? (characters : List Char) : Option Nat :=
  if !characters.isEmpty && characters.all Char.isDigit then
    some (Nat.ofDigitChars 10 characters 0)
  else
    none

def readExponent? : Option (List Char) → Option Int
  | none => some 0
  | some characters =>
      let (negative, digits) := takeSign characters
      match readDigits? digits with
      | none => none
      | some magnitude =>
          if magnitude ≤ maximumExponent then some (signed negative magnitude) else none

def ofScaled? (mantissa scale : Int) : Option DecimalLiteral :=
  if 0 ≤ scale then
    if scale.toNat ≤ maximumScale then some ⟨mantissa, scale.toNat⟩ else none
  else
    some ⟨mantissa * (Nat.pow 10 (-scale).toNat : Nat), 0⟩

def read? (characters : List Char) : Option DecimalLiteral :=
  let (negative, body) := takeSign characters
  let (base, exponentText) := cutAt (fun character => character == 'e' || character == 'E') body
  let (whole, placesText) := cutAt (fun character => character == '.') base
  let places := placesText.getD []
  match readDigits? (whole ++ places), readExponent? exponentText with
  | some magnitude, some exponent =>
      ofScaled? (signed negative magnitude) (places.length - exponent)
  | _, _ => none

def mantissaAt (literal : DecimalLiteral) (scale : Nat) : Int :=
  literal.mantissa * (Nat.pow 10 (scale - literal.scale) : Nat)

end DecimalLiteral

end FractionCalculator
