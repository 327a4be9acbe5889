import FractionCalculator.Calculator.Screen
import FractionCalculator.Proofs.Calculator.History
import FractionCalculator.Proofs.Evaluation.Accepted
import FractionCalculator.Proofs.Fraction.Nearest
import FractionCalculator.Proofs.Fraction.RoundTrip
import FractionCalculator.Proofs.Grammar.Completion
import FractionCalculator.Proofs.Decimal.Canonical
import FractionCalculator.Proofs.Evaluation.Steps
import FractionCalculator.Proofs.Evaluation.Spacing
import FractionCalculator.Proofs.Evaluation.Composition
import FractionCalculator.Proofs.Evaluation.Readers
import FractionCalculator.Proofs.Grammar.Bracketing
import FractionCalculator.Proofs.Evaluation.Postorder
import FractionCalculator.Proofs.Fraction.Arithmetic
import FractionCalculator.Proofs.Fraction.Results
import FractionCalculator.Proofs.Fraction.Laws
import FractionCalculator.Proofs.Fraction.Ordering
import FractionCalculator.Proofs.Grammar.Refusals
import FractionCalculator.Proofs.Evaluation.Quotation
import FractionCalculator.Proofs.Grammar.Juxtaposition
import FractionCalculator.Proofs.Fraction.Rounding
import FractionCalculator.Proofs.Fraction.Mixed
import FractionCalculator.Proofs.Fraction.Literals
import FractionCalculator.Proofs.Lexing.Tokens
import FractionCalculator.Proofs.Lexing.Lookahead
import FractionCalculator.Proofs.Lexing.Partition
import FractionCalculator.Proofs.Evaluation.Rendering
import FractionCalculator.Proofs.Calculator.Deletion
import FractionCalculator.Proofs.Calculator.Focus
import FractionCalculator.Proofs.Grammar.Levels
