import Daybook.CommandLine.Arguments
import Daybook.Files.Tree
import Daybook.Log.Narration
import Daybook.Report.Table
import Daybook.Config.Basic

/-!
How the program responds to its arguments.

An answer is an exit code, the lines of the output, and the remarks beside it: texts and log records in
the order in which they are made. It is a function of the arguments, of what reading a path gives, and of
how the documents of configurations are loaded, about which nothing is assumed. Whatever goes wrong with a
ledger or a configuration is part of the answer, with the exceptions that `Breakdown` lists.
-/

namespace Daybook.CommandLine

/-- How the program ended. -/
inductive ExitCode where
  | success
  /-- The ledger is not valid. -/
  | invalid
  /-- The arguments or the configuration are wrong, or a file cannot be read. -/
  | misuse
  deriving DecidableEq

/-- The number of an exit code. -/
def ExitCode.number : ExitCode → Nat
  | .success => 0
  | .invalid => 1
  | .misuse => 2

/-- Something that is said beside the output. -/
inductive Remark where
  | text (s : String)
  | record (r : LogRecord)

/-- The lines of a remark, of which the writing of records is given. -/
def Remark.lines {α : Type} (textLine : String → α) (recordLine : LogRecord → α) : Remark → List α
  | .text s => (Text.pieces '\n' s.toList).map fun line => textLine (String.ofList line)
  | .record r => [recordLine r]

/-- What the program answers. -/
structure Answer where
  exit : ExitCode
  output : List String
  remarks : List Remark

/-- The answer of whoever can do nothing but say why. -/
def Answer.refusal (reason : String) : Answer :=
  ⟨.misuse, [], [.text ("ERROR: " ++ reason)]⟩

/-- Why there is no answer at all. -/
inductive Breakdown where
  /-- The bytes of a file are no text. -/
  | undecodable
  /-- A path cannot name anything. -/
  | impossiblePath
  /-- A configuration has unknown keys that have no order. -/
  | unorderedKeys
  /-- A configuration names a number, a date or a character that there is not, or an unknown key of it is
  a number that cannot be written. -/
  | impossibleScalar
  /-- A configuration names a character by a number that no word of the machine holds. -/
  | hugeCharacter
  /-- The option for the configuration was given no value. -/
  | noConfig
  /-- The option for the last date was given no value, and dates have to be compared with it. -/
  | incomparableDate
  /-- The option for the last date was given no value, and it has to be shown. -/
  | unshownDate
  deriving DecidableEq

/-- How files are read. -/
abbrev Reader := Path → Except FileError ByteArray

/-- Why the bytes of a file are not loaded as a document. -/
inductive LoadError where
  /-- They are refused, for the given reason. -/
  | refused (reason : String)
  /-- The loader itself comes to nothing. -/
  | broken (b : Breakdown)

/-- How documents are loaded. The loader is given the name of the file, to which its reasons may refer, and the
bytes. -/
abbrev Loader := String → ByteArray → Except LoadError Value

/-- What is known when the work cannot go on. -/
inductive Ending where
  | answer (a : Answer)
  | breakdown (b : Breakdown)

/-- The bytes of a file. -/
def readBytes (read : Reader) (p : Path) (refuse : FileError → Answer) : Except Ending ByteArray :=
  if p.isImpossible then .error (.breakdown .impossiblePath)
  else (read p).mapError fun e => .answer (refuse e)

/-- The text of a file, with line feeds at the ends of lines. -/
def readText (read : Reader) (p : Path) (refuse : FileError → Answer) : Except Ending (List Char) := do
  let bytes ← readBytes read p refuse
  match String.fromUTF8? bytes with
  | some text => .ok (Text.unifyLineEnds text.toList)
  | none => .error (.breakdown .undecodable)

/-! ## The configuration -/

/-- The answer if a configuration cannot be read. -/
def refuseConfig (p : Path) (e : FileError) : Answer :=
  match e with
  | .notFound => .refusal ("config file not found: " ++ p.text)
  | e => .refusal ("cannot load config " ++ p.text ++ ": " ++ e.message (Text.quoted p.text))

/-- What goes wrong over an error that has no report. -/
def Breakdown.ofConfigError : ConfigError → Breakdown
  | .unwritableKey => .impossibleScalar
  | _ => .unorderedKeys

/-- The configuration in a file. -/
def loadConfig (load : Loader) (read : Reader) (p : Path) : Except Ending Config := do
  let bytes ← readBytes read p (refuseConfig p)
  match load p.text bytes with
  | .error (.refused reason) =>
    .error (.answer (.refusal ("cannot load config " ++ p.text ++ ": " ++ reason)))
  | .error (.broken b) => .error (.breakdown b)
  | .ok v =>
    match Config.ofValue v with
    | .ok config => .ok config
    | .error e =>
      match e.fault? with
      | some fault => .error (.answer (.refusal fault.message))
      | none => .error (.breakdown (.ofConfigError e))

/-- The configuration of a command. -/
def Command.loadConfig (load : Loader) (read : Reader) (c : Command) : Except Ending Config :=
  match c.config with
  | .absent => .ok .default
  | .void => .error (.breakdown .noConfig)
  | .value p => CommandLine.loadConfig load read p

/-! ## Remarks -/

/-- The records of a program from a level on. -/
def logged (level : LogLevel) (actions : List Action) : List Remark :=
  ((Action.recordsOf actions).filter fun r => level.number ≤ r.event.level).map .record

/-- A notice with an empty line after it. -/
def noticed (name source : String) (n : Notice) : List Remark :=
  [.text (n.render source name), .text ""]

/-- What is said of reading a source. -/
def compileRemarks (level : LogLevel) (name source : String) (c : Compilation) : List Remark :=
  logged level (c.actions name source)
    ++ c.diagnostics.flatMap fun d => noticed name source d.notice

/-! ## The commands -/

/-- The line for a check that ran. -/
def outcomeLine (o : Outcome) : String :=
  "Running validator: " ++ o.check.description ++ "... " ++ if o.ok then "OK" else "ERROR"

/-- The line for a check that did not run. -/
def skippedLine (check : Check) : String :=
  "Skipped validator: " ++ check.description

/-- The answer about a ledger that the given checks were run on. -/
def validationAnswer (level : LogLevel) (name source : String) (l : Ledger) (v : Validation) : Answer :=
  let remarks := logged level (v.actions l)
    ++ v.findings.flatMap fun f => noticed name source f.notice
  let verdict := match v.firstFailure? with
    | some o => [Remark.text ("Running validation `" ++ o.check.description ++ "` failed.")]
    | none => []
  { exit := if v.ok then .success else .invalid
    output := v.outcomes.map outcomeLine ++ v.skipped.map skippedLine
    remarks := remarks ++ verdict }

/-- The answer with remarks in front. -/
def Answer.after (remarks : List Remark) (a : Answer) : Answer :=
  { a with remarks := remarks ++ a.remarks }

/-- Runs the checks on a source. -/
def checkAnswer (level : LogLevel) (config : Config) (all : Bool) (name source : String) : Answer :=
  let c := Compilation.of source
  let remarks := compileRemarks level name source c
  if c.ok then
    let v := Validation.run c.ledger (config.failFast && !all) config.checks
    (validationAnswer level name source c.ledger v).after remarks
  else
    let count := toString c.diagnostics.length
    ⟨.invalid, [], remarks ++ [.text (name ++ ": " ++ count ++ " error(s), not validated.")]⟩

/-- The last date of a report. If the option for it was given no value, the report breaks down where
the first date is compared, or else where it is shown. -/
def cutOff (l : Ledger) : Setting Date → Except Breakdown (Option Date)
  | .absent => .ok none
  | .value date => .ok (some date)
  | .void =>
    if l.openings.isEmpty && l.entries.isEmpty then .error .unshownDate else .error .incomparableDate

/-- Prints the balances of a source. -/
def balanceAnswer (level : LogLevel) (asOf : Setting Date) (name source : String) :
    Except Breakdown Answer := do
  let c := Compilation.of source
  let remarks := compileRemarks level name source c
  if c.ok then
    let asOf ← cutOff c.ledger asOf
    return ⟨.success, [(BalanceSheet.of c.ledger asOf).render], remarks⟩
  else return ⟨.invalid, [], remarks⟩

/-- The answer about a source. -/
def Command.answer (level : LogLevel) (config : Config) (name source : String) :
    Command → Except Breakdown Answer
  | .check _ _ all => .ok (checkAnswer level config all name source)
  | .balance _ asOf => balanceAnswer level asOf name source

/-- The answer if a source cannot be read. -/
def refuseSource (p : Path) (e : FileError) : Answer :=
  .refusal ("cannot read " ++ p.text ++ ": " ++ e.text)

/-- Does what the arguments say. -/
def Arguments.proceed (load : Loader) (read : Reader) (a : Arguments) : Except Ending Answer := do
  let config ← a.command.loadConfig load read
  let level := a.logLevel.getD config.logLevel
  let source ← readText read a.command.file (refuseSource a.command.file)
  (a.command.answer level config a.command.file.text (String.ofList source)).mapError .breakdown

/-- The response to arguments. -/
def Arguments.respond (load : Loader) (read : Reader) (a : Arguments) : Except Breakdown Answer :=
  match a.proceed load read with
  | .ok answer => .ok answer
  | .error (.answer answer) => .ok answer
  | .error (.breakdown b) => .error b

end Daybook.CommandLine
