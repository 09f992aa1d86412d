import Daybook.Data.Record
import Daybook.Ledger.Build
import Daybook.Syntax.Bytes
import Daybook.Syntax.Parsed

/-!
From a source text to a ledger.

A compilation keeps what can be kept of any source, together with everything that is wrong with it,
in the order of the source. `compileStrictly` refuses a source with which anything is wrong.
-/

namespace Daybook

/-- Something wrong with a source. -/
inductive Diagnostic where
  | lexical (e : LexError)
  | syntactic (e : ParseError)
  deriving DecidableEq

namespace Diagnostic

/-- Where it is. -/
def span : Diagnostic → Span
  | .lexical e => e.span
  | .syntactic e => e.span

/-- The diagnostic as a notice. -/
def notice : Diagnostic → Notice
  | .lexical e => e.notice
  | .syntactic e => e.notice

/-- The code of the sort of a diagnostic. -/
def code : Diagnostic → String
  | .lexical _ => "LEX_ERROR"
  | .syntactic _ => "PARSE_ERROR"

/-- The name of the sort of a diagnostic. -/
def name : Diagnostic → String
  | .lexical _ => "LexError"
  | .syntactic _ => "ParseError"

/-- A text that may be missing, as messages for developers show it. -/
def optionalLiteral : Option String → String
  | some s => Text.quoted s
  | none => Value.null.literal

/-- The diagnostic as messages for developers show it. -/
def literal (d : Diagnostic) : String :=
  recordLiteral d.name
    [ ("span", d.span.literal), ("message", Text.quoted d.notice.message),
      ("found", optionalLiteral d.notice.found), ("expected", optionalLiteral d.notice.expected),
      ("details", optionalLiteral d.notice.details) ]

end Diagnostic

/-- The result of each stage of reading a source. -/
structure Compilation where
  lexed : Lexed
  parsed : Parsed
  ledger : Ledger

namespace Compilation

/-- Reads a source. -/
def of (source : String) : Compilation :=
  let lexed := Lexed.ofBytes (Text.Utf8.encode source.toList)
  let parsed := Parsed.of lexed.tokens
  ⟨lexed, parsed, Ledger.build parsed.statements⟩

/-- Everything that is wrong, by where it is. -/
def diagnostics (c : Compilation) : List Diagnostic :=
  let found := c.lexed.errors.map Diagnostic.lexical ++ c.parsed.errors.map Diagnostic.syntactic
  found.mergeSort fun a b => a.span.precedes b.span

/-- Whether nothing is wrong. -/
def ok (c : Compilation) : Bool := c.diagnostics.isEmpty

end Compilation

/-- A source that was refused, with everything that is wrong with it. -/
structure SourceRejected where
  sourceName : String
  diagnostics : List Diagnostic
  deriving DecidableEq

namespace SourceRejected

/-- The error as reports name it. -/
def fault (e : SourceRejected) : Fault :=
  .sourceRejected (.text e.sourceName) (e.diagnostics.map fun d => .other d.name d.literal d.literal)

end SourceRejected

/-- The ledger of a source with which nothing is wrong. -/
def compileStrictly (sourceName source : String) : Except SourceRejected Ledger :=
  let c := Compilation.of source
  if c.ok then .ok c.ledger else .error ⟨sourceName, c.diagnostics⟩

end Daybook
