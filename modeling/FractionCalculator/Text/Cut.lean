/-!
Cutting a text in two at the first character of a kind.
-/

namespace FractionCalculator

def cutAt (isMark : Char → Bool) (characters : List Char) : List Char × Option (List Char) :=
  (characters.takeWhile fun character => !isMark character,
    (characters.dropWhile fun character => !isMark character).tail?)

end FractionCalculator
