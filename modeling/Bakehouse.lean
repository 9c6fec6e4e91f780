import Bakehouse.Text.Quoted
import Bakehouse.Text.Blank
import Bakehouse.Text.Case
import Bakehouse.Text.Digit
import Bakehouse.Text.Identifier
import Bakehouse.Number.Shortest
import Bakehouse.Number.Print
import Bakehouse.Number.Literal
import Bakehouse.Payload.Basic
import Bakehouse.Payload.Numeral
import Bakehouse.Payload.Base64
import Bakehouse.Payload.Rotation
import Bakehouse.Pattern.Tiling
import Bakehouse.Pattern.Parser
import Bakehouse.Pattern.Template
import Bakehouse.Operation.Catalog
import Bakehouse.Dish.Basic
import Bakehouse.Reader.Stream
import Bakehouse.Language.Equality
import Bakehouse.Language.Interpreter
import Bakehouse.Console.CommandLine
import Bakehouse.Main
import Bakehouse.Proofs.Comparison
import Bakehouse.Proofs.Comparison.Store
import Bakehouse.Proofs.Comparison.Builtin
import Bakehouse.Proofs.Comparison.Embedding
import Bakehouse.Proofs.Comparison.Evaluator
import Bakehouse.Proofs.Invariant
import Bakehouse.Proofs.ScopeSafety
import Bakehouse.Proofs.ScopeHistory
import Bakehouse.Proofs.Cells
import Bakehouse.Proofs.StickyFailure
import Bakehouse.Proofs.Borrowing
import Bakehouse.Proofs.CoreFunctions
import Bakehouse.Proofs.EvaluationRules
import Bakehouse.Proofs.LexicalScoping
import Bakehouse.Proofs.MapReduce
import Bakehouse.Proofs.Equality
import Bakehouse.Proofs.Lexing
import Bakehouse.Proofs.Parsing
import Bakehouse.Proofs.Grammar
import Bakehouse.Proofs.ReadingBack
import Bakehouse.Proofs.Layout
import Bakehouse.Proofs.TokenStream
import Bakehouse.Proofs.Vocabulary
import Bakehouse.Proofs.Vocabulary.Builtin
import Bakehouse.Proofs.Vocabulary.Evaluator
import Bakehouse.Proofs.WellFormed
import Bakehouse.Proofs.AdjoiningTexts
import Bakehouse.Proofs.EntryPoints
import Bakehouse.Proofs.Concatenation
import Bakehouse.Proofs.Balance
import Bakehouse.Proofs.Output
import Bakehouse.Proofs.ReadLoop
import Bakehouse.Proofs.Registration
import Bakehouse.Proofs.Utf8
import Bakehouse.Proofs.Numerals
import Bakehouse.Proofs.Rotation
import Bakehouse.Proofs.Base64
import Bakehouse.Proofs.PositionalNumerals
import Bakehouse.Proofs.ByteLiterals
import Bakehouse.Proofs.Unmentioned
import Bakehouse.Proofs.Raising
import Bakehouse.Proofs.Faults
import Bakehouse.Proofs.Baking
import Bakehouse.Proofs.Limits
import Bakehouse.Proofs.Limits.Evaluator
import Bakehouse.Proofs.Survival
import Bakehouse.Proofs.Pattern.Matches
import Bakehouse.Proofs.Pattern.Tiling
import Bakehouse.Proofs.Pattern.Template
import Bakehouse.Proofs.Pattern.References
import Bakehouse.Proofs.Number.Interval
import Bakehouse.Proofs.Number.Rounding
import Bakehouse.Proofs.Number.Conversion
import Bakehouse.Proofs.Number.Shortest
import Bakehouse.Proofs.Number.Notation
import Bakehouse.Proofs.NumbersReadBack
import Bakehouse.Proofs.Arguments
import Bakehouse.Proofs.ArgumentFaults
