import Minifier.Command.Arguments
import Minifier.Command.Device
import Minifier.Command.Folder
import Minifier.Command.Path
import Minifier.Command.Task
import Minifier.Constant.Basic
import Minifier.Constant.Fold
import Minifier.Double.Basic
import Minifier.Double.Decimal
import Minifier.Double.Shortest
import Minifier.Double.Text
import Minifier.Finding
import Minifier.Finding.Encode
import Minifier.Json.Basic
import Minifier.Json.Draft
import Minifier.Json.Fault
import Minifier.Json.Numeral
import Minifier.Json.Record
import Minifier.Main
import Minifier.Operator
import Minifier.Options
import Minifier.Options.Codec
import Minifier.Printer
import Minifier.Proofs.Bindings
import Minifier.Proofs.Bitwise
import Minifier.Proofs.Census
import Minifier.Proofs.Constants
import Minifier.Proofs.Declarations
import Minifier.Proofs.Directives
import Minifier.Proofs.Double.Denotation
import Minifier.Proofs.Double.Keys
import Minifier.Proofs.Double.Notation
import Minifier.Proofs.Double.Numeral
import Minifier.Proofs.Double.Rounding
import Minifier.Proofs.Double.Shortest
import Minifier.Proofs.Double.Whole
import Minifier.Proofs.DoubleNegation
import Minifier.Proofs.Exits
import Minifier.Proofs.Fusion
import Minifier.Proofs.Grammar.Brackets
import Minifier.Proofs.Grammar.Expression
import Minifier.Proofs.Grammar.Pieces
import Minifier.Proofs.Grammar.Printing
import Minifier.Proofs.Grammar.Reading
import Minifier.Proofs.Grammar.Statement
import Minifier.Proofs.Grammar.StatementPrinting
import Minifier.Proofs.Grammar.StatementReading
import Minifier.Proofs.Grammar.Tokens
import Minifier.Proofs.Grammar.Unambiguous
import Minifier.Proofs.Json.Reading
import Minifier.Proofs.Json.Records
import Minifier.Proofs.Json.RoundTrip
import Minifier.Proofs.Json.Trees
import Minifier.Proofs.Labels
import Minifier.Proofs.Lexical.Lexer
import Minifier.Proofs.Lexical.Positions
import Minifier.Proofs.Lexical.Scanning
import Minifier.Proofs.Lexical.Spacing
import Minifier.Proofs.Lexical.Steps
import Minifier.Proofs.NormalForm
import Minifier.Proofs.NumericTexts
import Minifier.Proofs.Redeclarations
import Minifier.Proofs.Reports
import Minifier.Proofs.Scopes
import Minifier.Proofs.SecondPass.Output
import Minifier.Proofs.SecondPass.Settled
import Minifier.Proofs.Semantics.Action
import Minifier.Proofs.Semantics.Body
import Minifier.Proofs.Semantics.Branching
import Minifier.Proofs.Semantics.Constant
import Minifier.Proofs.Semantics.Expression
import Minifier.Proofs.Semantics.Jumps
import Minifier.Proofs.Semantics.Kinds
import Minifier.Proofs.Semantics.Negation
import Minifier.Proofs.Semantics.Rewriting
import Minifier.Proofs.Semantics.Simplification
import Minifier.Proofs.Semantics.Statement
import Minifier.Proofs.Session
import Minifier.Proofs.Settings
import Minifier.Proofs.Spans.Inherited
import Minifier.Proofs.Spans.Position
import Minifier.Proofs.Spans.Rules
import Minifier.Proofs.Survivors
import Minifier.Proofs.Text.Escapes
import Minifier.Proofs.Text.Literal
import Minifier.Proofs.Text.UnitOrder
import Minifier.Report
import Minifier.Session
import Minifier.Session.Basic
import Minifier.Simplify
import Minifier.Simplify.Body
import Minifier.Simplify.Condition
import Minifier.Simplify.Hoisted
import Minifier.Simplify.Kind
import Minifier.Simplify.Negation
import Minifier.Span
import Minifier.Syntax
import Minifier.Syntax.Decode
import Minifier.Syntax.Encode
import Minifier.Syntax.Marks
import Minifier.Text.Blank
import Minifier.Text.Hex
import Minifier.Text.Identifier
import Minifier.Text.IdentifierTable
import Minifier.Text.Quoted
import Minifier.Text.Ranges
import Minifier.Text.Units
import Minifier.Text.Visible
import Minifier.Text.VisibleTable
import Minifier.Token
