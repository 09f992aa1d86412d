import Daybook.Calendar.Iso
import Daybook.CommandLine.Word
import Daybook.Config.Basic
import Daybook.Files.Path

/-!
The arguments of the program.

    [--log-level LEVEL] check FILE [--config FILE] [--all]
    [--log-level LEVEL] balance FILE [--as-of DATE]

The options of a command stand after it, in any order and also before the file. Whoever asks for help
gets it at once, if nothing before is wrong. What is left over, such as options that there are not, is
refused only after everything else has been read. The word that ends the options is no value, not even
behind an equals sign, where an option is then given without one.
-/

namespace Daybook.CommandLine

/-- What an option was given for a value. -/
inductive Setting (α : Type) where
  /-- The option does not occur. -/
  | absent
  /-- The option occurs, but what it was given is no value. -/
  | void
  | value (a : α)
  deriving DecidableEq

/-- The value that an option was given. -/
def Setting.value? {α : Type} : Setting α → Option α
  | .value a => some a
  | _ => none

/-- What the program is to do. -/
inductive Command where
  /-- Run the checks. -/
  | check (file : Path) (config : Setting Path) (all : Bool)
  /-- Print the balances. -/
  | balance (file : Path) (asOf : Setting Date)
  deriving DecidableEq

/-- The ledger that a command reads. -/
def Command.file : Command → Path
  | .check file .. => file
  | .balance file _ => file

/-- The configuration that a command is to read. -/
def Command.config : Command → Setting Path
  | .check _ config _ => config
  | .balance .. => .absent

/-- Everything that a command line says. -/
structure Arguments where
  logLevel : Option LogLevel
  command : Command
  deriving DecidableEq

/-- Why nothing is done. -/
inductive Halt where
  /-- Help was asked for. -/
  | help
  /-- The arguments cannot be understood. -/
  | misuse
  deriving DecidableEq

/-- The options before the command. -/
def programSpellings : Spellings := [("-h", .help), ("--help", .help), ("--log-level", .logLevel)]

/-- The names of the commands. -/
inductive CommandName where
  | check
  | balance
  deriving DecidableEq

namespace CommandName

/-- The command with the given name. -/
def of? (s : String) : Option CommandName :=
  if s = "check" then some .check else if s = "balance" then some .balance else none

/-- The options of a command. -/
def spellings : CommandName → Spellings
  | .check => [("-h", .help), ("--help", .help), ("--config", .config), ("--all", .all)]
  | .balance => [("-h", .help), ("--help", .help), ("--as-of", .asOf)]

end CommandName

/-- What is known of the arguments so far. -/
structure Gathered where
  logLevel : Option LogLevel := none
  file : Option Path := none
  config : Setting Path := .absent
  all : Bool := false
  asOf : Setting Date := .absent
  /-- Whether something is left over. -/
  surplus : Bool := false
  deriving DecidableEq

namespace Gathered

/-- Notes that an option was given no value. -/
def clear (g : Gathered) : Flag → Except Halt Gathered
  | .logLevel => .ok { g with logLevel := none }
  | .config => .ok { g with config := .void }
  | .asOf => .ok { g with asOf := .void }
  | .help | .all => .error .misuse

/-- Notes the value of an option. -/
def set (g : Gathered) (value : String) (flag : Flag) : Except Halt Gathered :=
  if value = Word.separator then g.clear flag
  else
    match flag with
    | .logLevel =>
      match LogLevel.ofName? value with
      | some level => .ok { g with logLevel := some level }
      | none => .error .misuse
    | .config => .ok { g with config := .value (Path.of value) }
    | .asOf =>
      match Date.ofIso? value with
      | some date => .ok { g with asOf := .value date }
      | none => .error .misuse
    | .help | .all => .error .misuse

/-- Notes an option that takes no value. -/
def raise (g : Gathered) (flag : Flag) (value : Option String) : Except Halt Gathered :=
  if value.isSome then .error .misuse
  else if flag = .all then .ok { g with all := true }
  else .error .help

/-- Notes an argument: the first one is the file. -/
def take (g : Gathered) (argument : String) : Gathered :=
  match g.file with
  | none => { g with file := some (Path.of argument) }
  | some _ => { g with surplus := true }

/-- Notes what follows the word that ends the options, which may directly follow or precede the
file. -/
def close (g : Gathered) (afterFile : Bool) (rest : List String) : Gathered :=
  match g.file with
  | some _ => { g with surplus := g.surplus || !afterFile || !rest.isEmpty }
  | none => rest.foldl take g

/-- The value of an option that follows it as a word of its own. -/
def separateValue? (spellings : Spellings) : List String → Option String
  | [] => none
  | s :: _ => if s ≠ Word.separator ∧ Word.of spellings s = .argument then some s else none

/-- Notes an option, and says how many of the words that follow are its value. -/
def note (g : Gathered) (spellings : Spellings) (flag : Flag) (value : Option String)
    (rest : List String) : Except Halt (Gathered × Nat) :=
  if flag.takesValue then
    match value with
    | some value => (g.set value flag).map fun g => (g, 0)
    | none =>
      match separateValue? spellings rest with
      | some value => (g.set value flag).map fun g => (g, 1)
      | none => .error .misuse
  else (g.raise flag value).map fun g => (g, 0)

/-- Reads the words after a command. -/
def readCommand (spellings : Spellings) (afterFile : Bool) (g : Gathered) :
    List String → Except Halt Gathered
  | [] => .ok g
  | s :: rest =>
    if s = Word.separator then .ok (g.close afterFile rest)
    else
      match Word.of spellings s with
      | .argument => readCommand spellings g.file.isNone (g.take s) rest
      | .unknown => readCommand spellings false { g with surplus := true } rest
      | .ambiguous => .error .misuse
      | .option flag value =>
        match g.note spellings flag value rest with
        | .ok (g, used) => readCommand spellings false g (rest.drop used)
        | .error halt => .error halt
termination_by words => words.length
decreasing_by all_goals (simp; try omega)

/-- Whether a word before the end of the options can be understood in several ways. -/
def anyAmbiguous (spellings : Spellings) (words : List String) : Bool :=
  (words.takeWhile (· ≠ Word.separator)).any fun s => Word.of spellings s = .ambiguous

/-- What the words say about a command. -/
def arguments (g : Gathered) (name : CommandName) : Except Halt Arguments :=
  match g.surplus, g.file with
  | false, some file =>
    .ok
      { logLevel := g.logLevel
        command := match name with
          | .check => .check file g.config g.all
          | .balance => .balance file g.asOf }
  | _, _ => .error .misuse

/-- Reads the words up to the command, and those after it. -/
def readProgram (g : Gathered) : List String → Except Halt Arguments
  | [] => .error .misuse
  | s :: rest =>
    if s = Word.separator then .error .misuse
    else
      match Word.of programSpellings s with
      | .argument =>
        match CommandName.of? s with
        | none => .error .misuse
        | some name =>
          if anyAmbiguous name.spellings rest then .error .misuse
          else
            match readCommand name.spellings false g rest with
            | .ok g => g.arguments name
            | .error halt => .error halt
      | .unknown => readProgram { g with surplus := true } rest
      | .ambiguous => .error .misuse
      | .option flag value =>
        match g.note programSpellings flag value rest with
        | .ok (g, used) => readProgram g (rest.drop used)
        | .error halt => .error halt
termination_by words => words.length
decreasing_by all_goals (simp; try omega)

end Gathered

/-- What a command line says. -/
def Arguments.of (words : List String) : Except Halt Arguments :=
  if Gathered.anyAmbiguous programSpellings words then .error .misuse
  else Gathered.readProgram {} words

end Daybook.CommandLine
