import Daybook.Account.Basic
import Daybook.Account.Direction
import Daybook.Account.Kind
import Daybook.Calendar.Date
import Daybook.Calendar.Iso
import Daybook.Calendar.Timestamp
import Daybook.CommandLine.Answer
import Daybook.CommandLine.Arguments
import Daybook.CommandLine.Word
import Daybook.Compilation
import Daybook.Config.Basic
import Daybook.Data.Fault
import Daybook.Data.Json
import Daybook.Data.Record
import Daybook.Data.Tally
import Daybook.Data.Template
import Daybook.Data.Value
import Daybook.Files.Path
import Daybook.Files.Tree
import Daybook.Ledger.Basic
import Daybook.Ledger.Build
import Daybook.Ledger.Timeline
import Daybook.Log.Action
import Daybook.Log.Attachment
import Daybook.Log.Context
import Daybook.Log.Event
import Daybook.Log.Line
import Daybook.Log.Narration
import Daybook.Log.Setup
import Daybook.Main
import Daybook.Money.Basic
import Daybook.Money.Currency
import Daybook.Money.Exact
import Daybook.Money.Expression
import Daybook.Numeric.Amount
import Daybook.Numeric.Binary
import Daybook.Numeric.Decimal
import Daybook.Numeric.Numeral
import Daybook.Numeric.Ratio
import Daybook.Numeric.Rounded
import Daybook.Numeric.Shortest
import Daybook.Proofs.Source.Extent
import Daybook.Proofs.Syntax.Completeness
import Daybook.Proofs.Syntax.Faultless
import Daybook.Proofs.Syntax.Grammar
import Daybook.Proofs.Syntax.Lexeme
import Daybook.Proofs.Syntax.Soundness
import Daybook.Report.BalanceSheet
import Daybook.Report.Table
import Daybook.Source.Location
import Daybook.Source.Notice
import Daybook.Source.Span
import Daybook.Syntax.Lexer
import Daybook.Syntax.ParseError
import Daybook.Syntax.Parsed
import Daybook.Syntax.Production
import Daybook.Syntax.Statement
import Daybook.Syntax.Token
import Daybook.Text.Blank
import Daybook.Text.Capitals
import Daybook.Text.DecimalDigit
import Daybook.Text.Pieces
import Daybook.Text.Printable
import Daybook.Text.Quoted
import Daybook.Text.Utf8
import Daybook.Validation.Check
import Daybook.Validation.Finding
import Daybook.Validation.Outcome
import Daybook.Yaml.Cursor
import Daybook.Yaml.Document
import Daybook.Yaml.Flaw
import Daybook.Yaml.Lookahead
import Daybook.Yaml.Node
import Daybook.Yaml.Plain
import Daybook.Yaml.Quoted
import Daybook.Yaml.Scalar
import Daybook.Yaml.Token
import Daybook.Proofs.Syntax.Acceptance
import Daybook.Proofs.Syntax.Recovery
import Daybook.Proofs.Numeric.Amount
import Daybook.Proofs.Syntax.Blocks
import Daybook.Proofs.Syntax.Cutting
import Daybook.Proofs.Syntax.Spelling
import Daybook.Proofs.Syntax.RoundTrip
import Daybook.Proofs.Syntax.Pieces
import Daybook.Proofs.Syntax.Seam
import Daybook.Proofs.Syntax.Bytes
import Daybook.Proofs.Source.Slice
import Daybook.Proofs.Syntax.Placing
import Daybook.Proofs.Syntax.Tiling
import Daybook.Proofs.Syntax.Unreadable
import Daybook.Proofs.Syntax.Rules
import Daybook.Proofs.Syntax.Relocation
import Daybook.Proofs.Compilation.Concatenation
import Daybook.Proofs.Compilation.Excerpt
import Daybook.Proofs.Data.Tally
import Daybook.Proofs.Ledger.Timeline
import Daybook.Proofs.Report.BalanceSheet
import Daybook.Proofs.Validation.Excess
import Daybook.Proofs.Validation.Assertions
import Daybook.Proofs.Ledger.Transactions
import Daybook.Proofs.Report.Equation
import Daybook.Proofs.Syntax.Insertion
import Daybook.Proofs.Compilation.Layout
import Daybook.Proofs.Data.Grouping
import Daybook.Proofs.Account.Order
import Daybook.Proofs.Ledger.Reconstruction
import Daybook.Proofs.Report.Reordering
import Daybook.Proofs.Ledger.Provenance
import Daybook.Proofs.Source.Boundary
import Daybook.Proofs.Text.Rows
import Daybook.Proofs.Source.Location
import Daybook.Proofs.Compilation.Placement
import Daybook.Proofs.Guarded.Numeric
import Daybook.Proofs.Guarded.Lexing
import Daybook.Proofs.Guarded.Checking
import Daybook.Proofs.Guarded.Parsing
import Daybook.Proofs.Guarded.Printing
import Daybook.Proofs.Guarded.Narrating
import Daybook.Proofs.Guarded.Pipeline
import Daybook.Proofs.Ledger.RunningBalance
import Daybook.Proofs.Validation.Running
import Daybook.Proofs.CommandLine.Verdict
import Daybook.Proofs.CommandLine.Endings
import Daybook.Proofs.Guarded.Commands
import Daybook.Proofs.Report.Rows
import Daybook.Proofs.Validation.Imbalance
import Daybook.Proofs.Money.Reading
import Daybook.Proofs.Validation.Contradictions
import Daybook.Proofs.Validation.Currencies
import Daybook.Proofs.Ledger.Groups
import Daybook.Proofs.Validation.Selection
import Daybook.Proofs.Numeric.Canonical
import Daybook.Proofs.Numeric.Ratio
import Daybook.Proofs.Money.Exact
import Daybook.Proofs.Syntax.Wording
import Daybook.Proofs.Compilation.Rendering
import Daybook.Proofs.Text.Words
import Daybook.Proofs.Account.Path
import Daybook.Proofs.Calendar.Iso
import Daybook.Proofs.Report.Table
import Daybook.Proofs.Report.Reading
import Daybook.Proofs.Money.Expression
import Daybook.Proofs.Log.Calls
import Daybook.Proofs.Account.Agreement
import Daybook.Proofs.Config.Canonical
import Daybook.Proofs.Log.Setup
import Daybook.Proofs.Numeric.Conversion
