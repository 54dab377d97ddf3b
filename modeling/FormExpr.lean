import FormExpr.Host
import FormExpr.Proofs.Text.Digit
import FormExpr.Proofs.Text.Words
import FormExpr.Proofs.Text.Search
import FormExpr.Proofs.Number.Arithmetic
import FormExpr.Proofs.Number.Addition
import FormExpr.Proofs.Number.Sum
import FormExpr.Proofs.Number.Numeral
import FormExpr.Proofs.Number.Value
import FormExpr.Proofs.Number.NonNegative
import FormExpr.Proofs.Number.Faithful
import FormExpr.Proofs.Number.Overflow
import FormExpr.Proofs.Number.Integral
import FormExpr.Proofs.Number.PowerOfTen
import FormExpr.Proofs.Number.Symmetry
import FormExpr.Proofs.Number.Grammar
import FormExpr.Proofs.Random.ParkMiller
import FormExpr.Proofs.Random.Shuffle
import FormExpr.Proofs.Calendar.Date
import FormExpr.Proofs.Calendar.Zone
import FormExpr.Proofs.Calendar.LocalOffset
import FormExpr.Proofs.Calendar.LocalTime
import FormExpr.Proofs.Calendar.DayCount
import FormExpr.Proofs.Calendar.DateText
import FormExpr.Proofs.Calendar.DateGrammar
import FormExpr.Proofs.Calendar.MomentText
import FormExpr.Proofs.Calendar.Format
import FormExpr.Proofs.Calendar.FormatGrammar
import FormExpr.Proofs.Calendar.FullFormat
import FormExpr.Proofs.Calendar.ClockShare
import FormExpr.Proofs.Calendar.ClockMoment
import FormExpr.Proofs.Calendar.ForeignDigits
import FormExpr.Proofs.Geo.Trigonometry
import FormExpr.Proofs.Geo.SquareSum
import FormExpr.Proofs.Geo.Standstill
import FormExpr.Proofs.Tree.Lineage
import FormExpr.Proofs.Tree.Preorder
import FormExpr.Proofs.Tree.Sort
import FormExpr.Proofs.Tree.First
import FormExpr.Proofs.Tree.Sibling
import FormExpr.Proofs.Tree.StringValue
import FormExpr.Proofs.Tree.Linkage
import FormExpr.Proofs.Tree.Links
import FormExpr.Proofs.Tree.Builder
import FormExpr.Proofs.Tree.Grove
import FormExpr.Proofs.Pattern.Engine
import FormExpr.Proofs.Pattern.Standard
import FormExpr.Proofs.Operator.DateRule
import FormExpr.Proofs.Operator.Clocks
import FormExpr.Proofs.Operator.DateSubstitution
import FormExpr.Proofs.Operator.NodeSetComparison
import FormExpr.Proofs.Operator.ComparisonTable
import FormExpr.Proofs.Operator.Union
import FormExpr.Proofs.Operator.Converse
import FormExpr.Proofs.Function.Shape
import FormExpr.Proofs.Library.Clocks
import FormExpr.Proofs.Library.Refusal
import FormExpr.Proofs.Library.Subject
import FormExpr.Proofs.Library.Position
import FormExpr.Proofs.Library.Checklist
import FormExpr.Proofs.Library.Extreme
import FormExpr.Proofs.Library.Regex
import FormExpr.Proofs.Library.Selection
import FormExpr.Proofs.Library.Occurrence
import FormExpr.Proofs.Library.Slices
import FormExpr.Proofs.Library.Places
import FormExpr.Proofs.Library.DecimalPlaces
import FormExpr.Proofs.Host.Cast
import FormExpr.Proofs.Host.Registration
import FormExpr.Proofs.Host.Boundary
