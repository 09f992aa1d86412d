import Daybook.Log.Program

/-!
Steps of programs.

An action changes the context, clears it, reports an event, or runs a block of actions with some
fields bound, which may be left by a failure. A list of actions is a program; whether failures are
caught is up to what is put around each of them. `Action.runAll` goes on after every failure.
-/

namespace Daybook

/-- A step of a program. -/
inductive Action where
  | change (fields : ContextChange)
  | clear
  | emit (event : LogEvent)
  | block (fields : ContextChange) (body : List Action) (fails : Bool)

namespace Action

/-- The failure by which a block is left. -/
def leaving : Fault := .foreign "RuntimeError" []

mutual

/-- A step as a program. -/
def program (around : LogProgram → LogProgram) : Action → LogProgram
  | .change fields => around (.set fields)
  | .clear => around .clear
  | .emit event => around (.emit event)
  | .block fields body fails =>
    around (.bind fields (.andThen (programs around body) (if fails then .fail leaving else .done)))

/-- Some steps one after the other. -/
def programs (around : LogProgram → LogProgram) : List Action → LogProgram
  | [] => .done
  | a :: as => .andThen (program around a) (programs around as)

end

/-- Runs some steps one after the other, and catches every failure. -/
def runAll (as : List Action) (c : LogContext) : List Observation :=
  ((programs .attempt as).run (.holding c)).seen

/-- The records of a program that starts with nothing bound. -/
def recordsOf (as : List Action) : List LogRecord :=
  Observation.allRecords (runAll as .empty)

end Action

end Daybook
