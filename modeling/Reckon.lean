import Reckon.Binary64.Conversion
import Reckon.Binary64.CubeRoot
import Reckon.Binary64.Shortest
import Reckon.CommandLine.Request
import Reckon.CommandLine.Run
import Reckon.Decimal.Arithmetic
import Reckon.Decimal.Basic
import Reckon.Decimal.Canonical
import Reckon.Decimal.Exponential
import Reckon.Decimal.Literal
import Reckon.Decimal.Power
import Reckon.Decimal.Remainder
import Reckon.Decimal.Rounding
import Reckon.Decimal.Trigonometry
import Reckon.Decimal.Wide
import Reckon.Evaluate.Error
import Reckon.Evaluate.Operation
import Reckon.Evaluate.Seed
import Reckon.Evaluate.Tree
import Reckon.Journal
import Reckon.Json
import Reckon.Locate
import Reckon.Main
import Reckon.Node.Basic
import Reckon.Node.Chain
import Reckon.Parse.Descent
import Reckon.Parse.Error
import Reckon.Settings
import Reckon.Text.Characters
import Reckon.Text.Hidden
import Reckon.Text.Lines
import Reckon.Text.Quoted
import Reckon.Token.Basic
import Reckon.Token.Lexer
import Reckon.Vocabulary
import Reckon.Proofs.Grammar
import Reckon.Proofs.Acceptance
import Reckon.Proofs.Budget
import Reckon.Proofs.LongestPrefix
import Reckon.Proofs.Failures
import Reckon.Proofs.Numerals
import Reckon.Proofs.Spacing
import Reckon.Proofs.Normal
import Reckon.Proofs.Printing
import Reckon.Proofs.RoundTrip
import Reckon.Proofs.Reports
import Reckon.Proofs.Starts
import Reckon.Proofs.Search
import Reckon.Proofs.Value
import Reckon.Proofs.Significant
import Reckon.Proofs.Range
import Reckon.Proofs.FunctionRange
import Reckon.Proofs.Parts
import Reckon.Proofs.Precision
import Reckon.Proofs.Digits
import Reckon.Proofs.Literals
import Reckon.Proofs.TreeRange
import Reckon.Proofs.ExactArithmetic
import Reckon.Proofs.ExactTrees
import Reckon.Proofs.Canonical
import Reckon.Proofs.Feedback
import Reckon.Proofs.Spans
import Reckon.Proofs.Joining
import Reckon.Proofs.Located
import Reckon.Proofs.Openings
import Reckon.Proofs.Threshold
import Reckon.Proofs.Nesting
import Reckon.Proofs.Moving
import Reckon.Proofs.Combining
import Reckon.Proofs.WholeLine
import Reckon.Proofs.Remainders
import Reckon.Proofs.Prose
import Reckon.Proofs.Marks
import Reckon.Proofs.Tiers
import Reckon.Proofs.Stacks
import Reckon.Proofs.ExactLiterals
import Reckon.Proofs.PowersOfTwo
import Reckon.Proofs.CanonicalForm
import Reckon.Proofs.LongestMatch
import Reckon.Proofs.Placeless
import Reckon.Proofs.Gaps
import Reckon.Proofs.Streams
import Reckon.Proofs.Options
import Reckon.Proofs.Chance
import Reckon.Proofs.Runs
import Reckon.Proofs.Complaints
import Reckon.Proofs.Heights
import Reckon.Proofs.PowerFailures
import Reckon.Proofs.Projection
import Reckon.Proofs.Signs
import Reckon.Proofs.Extremes
import Reckon.Proofs.Renderings
import Reckon.Proofs.Parentheses
import Reckon.Proofs.Listings
import Reckon.Proofs.Arguments
