import FractionCalculator.Decimal.Literal
import FractionCalculator.Fraction.Basic
import FractionCalculator.Text.Blank

/-!
Fractions from decimal literals, and from texts with at most one fraction bar.
-/

namespace FractionCalculator.Fraction

def ofLiteral (literal : DecimalLiteral) : Fraction :=
  reduce literal.mantissa (Nat.pow 10 literal.scale) (Nat.pow_pos (by decide))

def ofLiteralPair (above below : DecimalLiteral) : Except CalculationError Fraction :=
  let scale := max above.scale below.scale
  ofRatio (above.mantissaAt scale) (below.mantissaAt scale)

/-- Reads a literal, or two literals around a fraction bar. Blanks do not count, wherever they
stand. -/
def ofText (text : String) : Except CalculationError Fraction :=
  let invalid := CalculationError.invalidFormat (trimBlanks text)
  match cutAt (fun character => character == '/') (withoutBlanks text.toList) with
  | (whole, none) =>
      match DecimalLiteral.read? whole with
      | some literal => .ok (ofLiteral literal)
      | none => .error invalid
  | (above, some below) =>
      match DecimalLiteral.read? above, DecimalLiteral.read? below with
      | some above, some below => ofLiteralPair above below
      | _, _ => .error invalid

end FractionCalculator.Fraction
