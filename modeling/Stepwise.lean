import Stepwise.Binary64
import Stepwise.Decimal.Basic
import Stepwise.Decimal.Digits
import Stepwise.Decimal.Rounding
import Stepwise.Decimal.Shortest
import Stepwise.Decimal.Text
import Stepwise.Formula.Basic
import Stepwise.Formula.Error
import Stepwise.Formula.Function
import Stepwise.Formula.Reader
import Stepwise.Formula.Substitution
import Stepwise.Formula.Term
import Stepwise.Formula.Token
import Stepwise.Formula.Tree
import Stepwise.Formula.Word
import Stepwise.Fraction
import Stepwise.Iteration
import Stepwise.Linear.Arrangement
import Stepwise.Linear.Determinant
import Stepwise.Linear.Elimination
import Stepwise.Linear.Engine
import Stepwise.Linear.Error
import Stepwise.Linear.Report
import Stepwise.Linear.Settings
import Stepwise.Linear.Solver
import Stepwise.Linear.Sweep
import Stepwise.Linear.System
import Stepwise.Linear.Table
import Stepwise.NumberFormat
import Stepwise.Outcome
import Stepwise.Proofs.Binary64
import Stepwise.Proofs.Binary64.Arithmetic
import Stepwise.Proofs.Binary64.Correct
import Stepwise.Proofs.Binary64.Division
import Stepwise.Proofs.Binary64.Nearest
import Stepwise.Proofs.Binary64.Order
import Stepwise.Proofs.Binary64.Overflow
import Stepwise.Proofs.Binary64.Range
import Stepwise.Proofs.Binary64.Rounding
import Stepwise.Proofs.Binary64.Scientific
import Stepwise.Proofs.Binary64.Sign
import Stepwise.Proofs.Binary64.Total
import Stepwise.Proofs.Decimal.FixedText
import Stepwise.Proofs.Except
import Stepwise.Proofs.Formula.Calls
import Stepwise.Proofs.Formula.Clashes
import Stepwise.Proofs.Formula.Combinators
import Stepwise.Proofs.Formula.Completeness
import Stepwise.Proofs.Formula.Derivation
import Stepwise.Proofs.Formula.Division
import Stepwise.Proofs.Formula.Failures
import Stepwise.Proofs.Formula.Grammar
import Stepwise.Proofs.Formula.Identifiers
import Stepwise.Proofs.Formula.Lexemes
import Stepwise.Proofs.Formula.LineBreaks
import Stepwise.Proofs.Formula.Literals
import Stepwise.Proofs.Formula.Lookup
import Stepwise.Proofs.Formula.Names
import Stepwise.Proofs.Formula.Neighbours
import Stepwise.Proofs.Formula.Parts
import Stepwise.Proofs.Formula.Plugging
import Stepwise.Proofs.Formula.Printing
import Stepwise.Proofs.Formula.Refusals
import Stepwise.Proofs.Formula.Replacement
import Stepwise.Proofs.Formula.Scanning
import Stepwise.Proofs.Formula.Soundness
import Stepwise.Proofs.Formula.Substitution
import Stepwise.Proofs.Formula.Tokens
import Stepwise.Proofs.Formula.WholeWords
import Stepwise.Proofs.Fraction.Computation
import Stepwise.Proofs.Fraction.Conversion
import Stepwise.Proofs.Fraction.FiveDigits
import Stepwise.Proofs.Fraction.Text
import Stepwise.Proofs.Fraction.Threshold
import Stepwise.Proofs.Fraction.ToFloat
import Stepwise.Proofs.Fraction.Value
import Stepwise.Proofs.Histories
import Stepwise.Proofs.Iteration
import Stepwise.Proofs.Linear.Arrangement
import Stepwise.Proofs.Linear.BackSubstitution
import Stepwise.Proofs.Linear.Checking
import Stepwise.Proofs.Linear.Coherence
import Stepwise.Proofs.Linear.Conversion
import Stepwise.Proofs.Linear.Defects
import Stepwise.Proofs.Linear.Dependence
import Stepwise.Proofs.Linear.Determinant
import Stepwise.Proofs.Linear.Diagonal
import Stepwise.Proofs.Linear.DirectMethods
import Stepwise.Proofs.Linear.Divisors
import Stepwise.Proofs.Linear.Elimination
import Stepwise.Proofs.Linear.Engine
import Stepwise.Proofs.Linear.LineBreaks
import Stepwise.Proofs.Linear.Matrix
import Stepwise.Proofs.Linear.Pivoting
import Stepwise.Proofs.Linear.Record
import Stepwise.Proofs.Linear.Recurrence
import Stepwise.Proofs.Linear.Reordering
import Stepwise.Proofs.Linear.Replay
import Stepwise.Proofs.Linear.Singularity
import Stepwise.Proofs.Linear.Sweep
import Stepwise.Proofs.Linear.Tolerance
import Stepwise.Proofs.Readback
import Stepwise.Proofs.Root.Blocks
import Stepwise.Proofs.Root.Bracket
import Stepwise.Proofs.Root.Coherence
import Stepwise.Proofs.Root.Course
import Stepwise.Proofs.Root.Enclosure
import Stepwise.Proofs.Root.Endpoints
import Stepwise.Proofs.Root.Engine
import Stepwise.Proofs.Root.Forecast
import Stepwise.Proofs.Root.Gate
import Stepwise.Proofs.Root.Halving
import Stepwise.Proofs.Root.Ledger
import Stepwise.Proofs.Root.LineBreaks
import Stepwise.Proofs.Root.Opening
import Stepwise.Proofs.Root.Orbit
import Stepwise.Proofs.Root.Range
import Stepwise.Proofs.Root.Reversal
import Stepwise.Proofs.Root.SignChange
import Stepwise.Proofs.Text.Fields
import Stepwise.Proofs.Text.OneLine
import Stepwise.Proofs.Transcript
import Stepwise.Root.Bracket
import Stepwise.Root.Bracketing
import Stepwise.Root.Engine
import Stepwise.Root.Error
import Stepwise.Root.Finder
import Stepwise.Root.FixedPoint
import Stepwise.Root.Problem
import Stepwise.Root.Report
import Stepwise.Root.Secant
import Stepwise.Root.Settings
import Stepwise.Root.Tangent
import Stepwise.Text.Blank
import Stepwise.Text.CharSet
import Stepwise.Text.ExtendingMark
import Stepwise.Text.Quoted
import Stepwise.Text.Unprintable
import Stepwise.Tolerance
import Stepwise.Trail
import Stepwise.Transcript
