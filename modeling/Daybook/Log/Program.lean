import Daybook.Data.Fault
import Daybook.Log.Event
import Daybook.Log.Variable

/-!
Programs that change the log context.

A program changes the context, clears it, reports events, fails, and runs blocks with some fields
bound. A failure ends everything up to the next `attempt`; a block that it leaves puts the context back
all the same. `LogProgram.run` says what is observed on the way and how it ends.
-/

namespace Daybook

/-- A program. -/
inductive LogProgram where
  | done
  | set (fields : ContextChange)
  | clear
  | emit (event : LogEvent)
  | fail (f : Fault)
  /-- A block with some fields bound. -/
  | bind (fields : ContextChange) (body : LogProgram)
  /-- A failure of the body is caught. -/
  | attempt (body : LogProgram)
  | andThen (first second : LogProgram)

/-- Why a program fails. -/
inductive LogFailure where
  /-- A change names fields that there are not. -/
  | unknownFields (e : UnknownFields)
  /-- A block cannot put the context back. -/
  | receipt (e : LogVariable.ReceiptError)
  /-- Something that runs in the program fails. -/
  | fault (f : Fault)

/-- The name of a failure. -/
def LogFailure.name : LogFailure → String
  | .unknownFields _ => "TypeError"
  | .receipt .used => "RuntimeError"
  | .receipt .foreign => "ValueError"
  | .fault f => f.name

/-- What is observed of a step, with the context after it. -/
inductive Observation where
  | changed (after : LogContext)
  | refused (e : UnknownFields) (after : LogContext)
  | emitted (event : LogEvent) (after : LogContext)
  | block (inside : LogContext) (body : List Observation) (failed : Bool) (after : LogContext)

namespace Observation

/-- The context after a step. -/
def after : Observation → LogContext
  | .changed c => c
  | .refused _ c => c
  | .emitted _ c => c
  | .block _ _ _ c => c

mutual

/-- The events reported in a step, each with its context. -/
def records : Observation → List LogRecord
  | .emitted event c => [⟨event, c⟩]
  | .block _ body _ _ => allRecords body
  | _ => []

/-- The events reported in some steps. -/
def allRecords : List Observation → List LogRecord
  | [] => []
  | o :: os => records o ++ allRecords os

end

end Observation

/-- What comes of a program: what is observed, the failure that it ends with, if any, and the variable
that it leaves. -/
structure LogRun where
  seen : List Observation
  failure : Option LogFailure
  left : LogVariable

namespace LogRun

/-- A change that is refused. -/
def refused (v : LogVariable) (e : UnknownFields) : LogRun :=
  ⟨[.refused e v.value], some (.unknownFields e), v⟩

/-- The end of a block of which the body has run. Putting the context back takes the receipt from its
beginning. -/
def leave (body : LogRun) (inside : LogContext) (r : LogVariable.Receipt) : LogRun :=
  match body.left.reset r with
  | .ok left => ⟨[.block inside body.seen body.failure.isSome left.value], body.failure, left⟩
  | .error e => ⟨[.block inside body.seen true body.left.value], some (.receipt e), body.left⟩

end LogRun

/-- Runs a program. -/
def LogProgram.run : LogProgram → LogVariable → LogRun
  | .done, v => ⟨[], none, v⟩
  | .set fields, v =>
    match v.value.change fields with
    | .ok c => ⟨[.changed c], none, (v.set c).2⟩
    | .error e => .refused v e
  | .clear, v => ⟨[.changed .empty], none, (v.set .empty).2⟩
  | .emit event, v => ⟨[.emitted event v.value], none, v⟩
  | .fail f, v => ⟨[], some (.fault f), v⟩
  | .bind fields body, v =>
    match v.value.change fields with
    | .ok c => (body.run (v.set c).2).leave c (v.set c).1
    | .error e => .refused v e
  | .attempt body, v => { body.run v with failure := none }
  | .andThen first second, v =>
    let one := first.run v
    match one.failure with
    | some _ => one
    | none =>
      let two := second.run one.left
      ⟨one.seen ++ two.seen, two.failure, two.left⟩

end Daybook
