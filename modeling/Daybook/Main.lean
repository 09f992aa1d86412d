import Daybook.CommandLine.Answer
import Daybook.Calendar.Timestamp
import Daybook.Data.Json
import Std.Time.DateTime.Timestamp

/-!
The program.

Everything that is decided is decided by `CommandLine.Arguments.answer`. Here files are read, and lines
are printed.
-/

namespace Daybook.Program

/-- What is said to whoever asks for help, or needs it. -/
def usage : List String :=
  [ "usage: daybook [--log-level LEVEL] check FILE [--config FILE] [--all]",
    "       daybook [--log-level LEVEL] balance FILE [--as-of DATE]",
    "",
    "check      run the checks on a ledger, up to the first failure",
    "balance    print the balances of all accounts",
    "",
    "Exit codes: 0 success, 1 invalid ledger, 2 wrong usage or unreadable file." ]

/-- The error that the system reports. -/
def fileError (e : IO.Error) : FileError :=
  match e with
  | .noFileOrDirectory .. => .notFound
  | .inappropriateType _ code _ => if code = 21 then .isDirectory else .notDirectory
  | .invalidArgument _ code text => if code = 36 then .nameTooLong else .other code.toNat text
  | .permissionDenied _ _ text => .other 13 text
  | e => .other 5 (toString e)

/-- What reading some paths gives. -/
def readAll (paths : List Path) : IO (List (Path × Except FileError ByteArray)) :=
  paths.mapM fun p => do
    if p.isImpossible then return (p, .error .notFound)
    match ← (IO.FS.readBinFile p.text).toBaseIO with
    | .ok bytes => return (p, .ok bytes)
    | .error e => return (p, .error (fileError e))

/-- The present time. -/
def now : IO String := do
  let t ← Std.Time.Timestamp.now
  let micros := t.toSecondsSinceUnixEpoch.val * 1000000 + t.val.nano.val / 1000
  return ((Timestamp.mk micros).iso?).getD ""

/-- A record on one line. -/
def recordLine (time : String) (r : LogRecord) : String :=
  Json.write (Json.object (r.fields time))

/-- Says why there is no answer. -/
def breakdownText : CommandLine.Breakdown → String
  | .undecodable => "ERROR: a file is not UTF-8 text"
  | .impossiblePath => "ERROR: a path contains the null character"
  | .unorderedKeys => "ERROR: the configuration has unknown keys of several types"
  | .impossibleScalar => "ERROR: the configuration has a number, date or character that cannot be"
  | .hugeCharacter => "ERROR: the configuration has a character code that is too large"
  | .noConfig => "ERROR: --config has no value"
  | .incomparableDate | .unshownDate => "ERROR: --as-of has no value"

/-- Answers to arguments. -/
def respond (a : CommandLine.Arguments) : IO UInt32 := do
  let known ← readAll (a.command.config.value?.toList ++ [a.command.file])
  let read := fun p => ((known.find? (·.1 = p)).map (·.2)).getD (.error .notFound)
  match a.answer read with
  | .ok answer =>
    let time ← now
    for remark in answer.remarks do
      for line in remark.lines id (recordLine time) do
        IO.eprintln line
    for line in answer.output do
      IO.println line
    return answer.exit.number.toUInt32
  | .error b =>
    IO.eprintln (breakdownText b)
    return 1

end Daybook.Program

/-- Reads a ledger and checks it or prints its balances. -/
def main (args : List String) : IO UInt32 := do
  match Daybook.CommandLine.Arguments.of args with
  | .ok a => Daybook.Program.respond a
  | .error .help =>
    for line in Daybook.Program.usage do
      IO.println line
    return 0
  | .error .misuse =>
    for line in Daybook.Program.usage do
      IO.eprintln line
    return 2
