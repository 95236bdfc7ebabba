import Criterion.Condition
import Criterion.Rules.Compiled
import Criterion.Yaml.Cursor
import Criterion.Yaml.Gap
import Criterion.Yaml.PlainScalar
import Criterion.Yaml.QuotedScalar
import Criterion.Yaml.BlockScalar
import Criterion.Yaml.Layout
import Criterion.Yaml.Grammar
import Criterion.Yaml.Datum
import Criterion.Rules.Document
import Criterion.Parameters
import Criterion.Dotenv
import Criterion.CommandLine.Response
import Criterion.Main
import Criterion.Proofs.Except
import Criterion.Proofs.Builder.Zipper
import Criterion.Proofs.Builder.Arena
import Criterion.Proofs.Builder.Assembly
import Criterion.Proofs.Evaluation
import Criterion.Proofs.Token.Rendering
import Criterion.Proofs.Parsing
import Criterion.Proofs.Closing
import Criterion.Proofs.Grammar
import Criterion.Proofs.Grouping
import Criterion.Proofs.Misgrouping
import Criterion.Proofs.Parts
import Criterion.Proofs.Acceptance
import Criterion.Proofs.Leaves
import Criterion.Proofs.Substitution
import Criterion.Proofs.Builder.Replacement
import Criterion.Proofs.Connectives
import Criterion.Proofs.Token.RoundTrip
import Criterion.Proofs.SafeGrouping
import Criterion.Proofs.Rules.Compiling
import Criterion.Proofs.CommandLine.Calls
import Criterion.Proofs.CommandLine.Environment
import Criterion.Proofs.CommandLine.Check
import Criterion.Proofs.Decimal.Integers
import Criterion.Proofs.Decimal.Order
import Criterion.Proofs.Yaml.BareWord
import Criterion.Proofs.Yaml.Integers
import Criterion.Proofs.CommandLine.Integers
import Criterion.Proofs.Builder.Failure
import Criterion.Proofs.Chains
import Criterion.Proofs.Token.Offsets
import Criterion.Proofs.Token.Segmentation
import Criterion.Proofs.Wrapping
import Criterion.Proofs.Equality
import Criterion.Proofs.Quoting
import Criterion.Proofs.Decimal.Numeral
import Criterion.Proofs.NumericWords
import Criterion.Proofs.Decimal.Written
import Criterion.Proofs.Ordering
import Criterion.Proofs.Text.Octets
import Criterion.Proofs.MissingOperands
import Criterion.Proofs.Scale
import Criterion.Proofs.Decimal.Scientific
import Criterion.Proofs.Datum.Shortest
import Criterion.Proofs.NumberParameters
import Criterion.Proofs.Datum.Fields
import Criterion.Proofs.Rules.Outcomes
import Criterion.Proofs.Assignments
import Criterion.Proofs.Overrides
