/-!
Blank characters, and the two ways of leaving them out of a text.
-/

namespace FractionCalculator

/-- The code points with the Unicode property White_Space, as closed ranges. -/
def blankRanges : List (Nat × Nat) :=
  [(0x09, 0x0D), (0x20, 0x20), (0x85, 0x85), (0xA0, 0xA0), (0x1680, 0x1680), (0x2000, 0x200A),
    (0x2028, 0x2029), (0x202F, 0x202F), (0x205F, 0x205F), (0x3000, 0x3000)]

def isBlank (character : Char) : Bool :=
  blankRanges.any fun range => range.1 ≤ character.toNat && character.toNat ≤ range.2

def withoutBlanks (characters : List Char) : List Char :=
  characters.filter fun character => !isBlank character

def dropTrailing (unwanted : Char → Bool) (characters : List Char) : List Char :=
  (characters.reverse.dropWhile unwanted).reverse

def trimBlanks (text : String) : String :=
  String.ofList (dropTrailing isBlank (text.toList.dropWhile isBlank))

end FractionCalculator
