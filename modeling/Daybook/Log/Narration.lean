import Daybook.Compilation
import Daybook.Config.Basic
import Daybook.Log.Action

/-!
What the stages report.

Each stage reports a few events about its result, so its events are a function of the result. Reading
a source binds the name of the source and the stage, running a check the name of the check. How long
a check took is not part of its result and not reported here.
-/

namespace Daybook

/-- The report of an event. -/
def report (level : LogLevel) (logger message : String) (extra : List (String × Value)) : Action :=
  .emit { level := level.number, logger := "hortela." ++ logger, message, extra }

/-- A number as a field. -/
def countField (name : String) (n : Nat) : String × Value := (name, .integer n)

/-- The ends of a span as fields. -/
def spanFields (s : Span) : List (String × Value) :=
  [countField "span_start" s.start, countField "span_end" s.stop]

/-- What reading tokens reports. -/
def Lexed.actions (source : String) (l : Lexed) : List Action :=
  l.errors.map (fun e =>
    report .debug "syntax.lexer" "lex_error" (spanFields e.span ++ [("found", .text e.found)]))
  ++ [ report .debug "syntax.lexer" "lexing_completed"
    [ countField "token_count" l.tokens.length, countField "error_count" l.errors.length,
      countField "byte_count" source.utf8ByteSize ] ]

/-- What reading statements reports. -/
def Parsed.actions (p : Parsed) : List Action :=
  p.errors.map (fun e =>
    report .debug "syntax.parser" "parse_error"
      (spanFields e.span ++ [("error_message", .text e.complaint.message)]))
  ++ [ report .debug "syntax.parser" "parse_completed"
    [ countField "operation_count" p.statements.length, countField "error_count" p.errors.length ] ]

/-- What building a ledger reports. -/
def Ledger.actions (l : Ledger) : List Action :=
  [ report .debug "ledger.builder" "ledger_built"
    [ countField "transaction_count" l.entries.length,
      countField "verification_count" l.assertions.length,
      countField "opening_count" l.openings.length ] ]

/-- Some actions while a stage is bound. -/
def stageBlock (stage : String) (body : List Action) : Action :=
  .block [("stage", some stage)] body false

/-- What reading a source reports. -/
def Compilation.actions (sourceName source : String) (c : Compilation) : List Action :=
  [ .block [("source_name", some sourceName)]
    [ stageBlock "lex" (c.lexed.actions source), stageBlock "parse" c.parsed.actions,
      stageBlock "build" c.ledger.actions ]
    false ]

/-- What reading a source reports to which nothing may be wrong. -/
def Compilation.strictActions (sourceName source : String) (c : Compilation) : List Action :=
  c.actions sourceName source
    ++ (if c.ok then []
      else [ report .warning "pipeline" "source_rejected"
        [ ("source_name", .text sourceName), countField "error_count" c.diagnostics.length ] ])

/-- Currencies as a field. -/
def currenciesField (currencies : List Currency) : String × Value :=
  ("currencies", .list (currencies.map fun c => .text c.code))

/-- A warning if amounts of several currencies are added up. -/
def mixedWarning (subject : String × Value) (currencies : List Currency) : List Action :=
  if currencies.length < 2 then []
  else [ report .warning "validation.checks" "mixed_currency_aggregation"
    [subject, currenciesField currencies] ]

/-- The warnings of a check about currencies. -/
def Check.warnings (l : Ledger) : Check → List Action
  | .totals => []
  | .transactions =>
    l.groups.flatMap fun (key, entries) =>
      mixedWarning ("parent_id", .integer key) (currenciesOf entries)
  | .balances =>
    let timelines := assertedTimelines l
    l.assertions.flatMap fun b =>
      mixedWarning ("account", .text b.account.path)
        (comparedCurrencies (timelineOf timelines b.account) b)

/-- What running a check reports. -/
def Outcome.actions (l : Ledger) (o : Outcome) : Action :=
  .block [("check_name", some o.check.key)]
    (report .debug "validation.engine" "check_started" []
      :: o.check.warnings l
      ++ [ if o.ok then report .info "validation.engine" "check_passed" []
        else report .warning "validation.engine" "check_failed"
          [countField "trace_count" o.findings.length] ])
    false

/-- What running checks reports. -/
def Validation.actions (l : Ledger) (v : Validation) : List Action :=
  v.outcomes.map (Outcome.actions l)
    ++ [ report .info "validation.engine" "validation_completed"
      [ ("passed", .bool v.ok), countField "checks_run" v.outcomes.length,
        countField "checks_skipped" v.skipped.length,
        countField "trace_count" v.findings.length ] ]

end Daybook
