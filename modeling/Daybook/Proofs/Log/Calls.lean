import Daybook.Log.Narration
import Daybook.Proofs.Log.Scope

/-!
The context before and after a call.

Reading a source and running checks report events in blocks, and change the context nowhere else
(`Action.Reports`). So a call leaves the context as it was, whether it returns or fails, and wherever it may be
broken off; and a change of a field that there is not is refused with no effect at all
(`LogProgram.properly_scoped`).
-/

namespace Daybook

open LogContext (unknownNames)
open LogProgram (Interrupted)

/-! ## Steps that report -/

/-- Whether a step reports an event, or is a block of such steps that binds known fields and runs to its end. -/
inductive Action.Reports : Action → Prop
  | emit (event : LogEvent) : Reports (.emit event)
  | block {fields : ContextChange} {body : List Action} (hfields : unknownNames fields = [])
    (hbody : ∀ a ∈ body, Reports a) : Reports (.block fields body false)

namespace Action

/-- Actions one after the other are contained if each of them is. -/
theorem contained_programs {as : List Action} (h : ∀ a ∈ as, (program id a).Contained) :
    (programs id as).Contained := by
  induction as with
  | nil => trivial
  | cons a as ih =>
    obtain ⟨ha, has⟩ := List.forall_mem_cons.1 h
    exact ⟨ha, ih has⟩

/-- They are without fault if each of them is. -/
theorem faultless_programs {as : List Action} (h : ∀ a ∈ as, (program id a).Faultless) :
    (programs id as).Faultless := by
  induction as with
  | nil => trivial
  | cons a as ih =>
    obtain ⟨ha, has⟩ := List.forall_mem_cons.1 h
    exact ⟨ha, ih has⟩

/-- Reporting changes the context inside blocks only. -/
theorem Reports.contained {a : Action} (h : a.Reports) : (program id a).Contained := by
  cases h with
  | emit event => trivial
  | block hfields hbody => trivial

/-- Reporting binds no field that contexts do not know. -/
theorem Reports.faultless {a : Action} (h : a.Reports) : (program id a).Faultless := by
  induction h with
  | emit event => trivial
  | block hfields _ ih => exact ⟨hfields, faultless_programs ih, trivial⟩

end Action

open Daybook.Action (Reports)

/-- Reading tokens does nothing but report. -/
theorem reports_lexed (source : String) (l : Lexed) : ∀ a ∈ l.actions source, a.Reports := by
  refine List.forall_mem_append.2 ⟨List.forall_mem_map.2 fun e _ => .emit _, ?_⟩
  exact List.forall_mem_singleton.2 (.emit _)

/-- Reading statements does nothing but report. -/
theorem reports_parsed (p : Parsed) : ∀ a ∈ p.actions, a.Reports := by
  refine List.forall_mem_append.2 ⟨List.forall_mem_map.2 fun e _ => .emit _, ?_⟩
  exact List.forall_mem_singleton.2 (.emit _)

/-- Building a ledger does nothing but report. -/
theorem reports_ledger (l : Ledger) : ∀ a ∈ l.actions, a.Reports :=
  List.forall_mem_singleton.2 (.emit _)

variable (name source : String)

/-- Compiling a source does nothing but report. -/
theorem reports_compilation (c : Compilation) : ∀ a ∈ c.actions name source, a.Reports := by
  refine List.forall_mem_singleton.2 (.block rfl ?_)
  simp only [List.forall_mem_cons]
  exact ⟨.block rfl (reports_lexed source c.lexed), .block rfl (reports_parsed c.parsed),
    .block rfl (reports_ledger c.ledger), List.forall_mem_nil _⟩

/-- Compiling it strictly does nothing but report. -/
theorem reports_strict (c : Compilation) : ∀ a ∈ c.strictActions name source, a.Reports := by
  refine List.forall_mem_append.2 ⟨reports_compilation name source c, ?_⟩
  split
  · exact List.forall_mem_nil _
  · exact List.forall_mem_singleton.2 (.emit _)

/-- The warning about several currencies is a report. -/
theorem reports_mixedWarning (subject : String × Value) (currencies : List Currency) :
    ∀ a ∈ mixedWarning subject currencies, a.Reports := by
  unfold mixedWarning
  split
  · exact List.forall_mem_nil _
  · exact List.forall_mem_singleton.2 (.emit _)

/-- So are the warnings of a check. -/
theorem reports_warnings (l : Ledger) (check : Check) : ∀ a ∈ check.warnings l, a.Reports := by
  cases check with
  | totals => exact List.forall_mem_nil _
  | transactions =>
    intro a ha
    obtain ⟨g, -, ha⟩ := List.mem_flatMap.1 ha
    exact reports_mixedWarning _ _ a ha
  | balances =>
    intro a ha
    obtain ⟨b, -, ha⟩ := List.mem_flatMap.1 ha
    exact reports_mixedWarning _ _ a ha

/-- Running a check reports inside a block that names it. -/
theorem reports_outcome (l : Ledger) (o : Outcome) : (o.actions l).Reports := by
  refine .block rfl (List.forall_mem_cons.2 ⟨.emit _, List.forall_mem_append.2 ⟨?_, ?_⟩⟩)
  · exact reports_warnings l o.check
  · refine List.forall_mem_singleton.2 ?_
    split
    · exact .emit _
    · exact .emit _

/-- Validating a ledger does nothing but report. -/
theorem reports_validation (l : Ledger) (v : Validation) : ∀ a ∈ v.actions l, a.Reports := by
  refine List.forall_mem_append.2 ⟨List.forall_mem_map.2 fun o _ => reports_outcome l o, ?_⟩
  exact List.forall_mem_singleton.2 (.emit _)

/-! ## Calls -/

/-- A call that reports what it does. -/
inductive Call where
  /-- Reads a source, with whatever is wrong with it. -/
  | read (name source : String)
  /-- Reads a source with which nothing may be wrong. -/
  | readStrictly (name source : String)
  /-- Runs the checks with the given names on a ledger. -/
  | validate (l : Ledger) (names : Option (List String)) (failFast : Bool)

namespace Call

/-- The failure that a call ends with, if any. -/
def fault? : Call → Option Fault
  | .read .. => none
  | .readStrictly name source =>
    match compileStrictly name source with
    | .ok _ => none
    | .error e => some e.fault
  | .validate l names failFast =>
    match l.validate names failFast with
    | .ok _ => none
    | .error e => some e.fault

/-- The end of a program, by a failure or without one. -/
def ending : Option Fault → LogProgram
  | none => .done
  | some f => .fail f

/-- The program of a call. The names of checks are looked up before anything is reported. -/
def program : Call → LogProgram
  | .read name source => Action.programs id ((Compilation.of source).actions name source)
  | .readStrictly name source =>
    .andThen (Action.programs id ((Compilation.of source).strictActions name source))
      (ending (fault? (.readStrictly name source)))
  | .validate l names failFast =>
    match l.validate names failFast with
    | .ok v => Action.programs id (v.actions l)
    | .error e => .fail e.fault

theorem contained_of_reports {as : List Action} (h : ∀ a ∈ as, a.Reports) :
    (Action.programs id as).Contained :=
  Action.contained_programs fun a ha => (h a ha).contained

/-- No report fails, whatever the context is. -/
theorem failure_of_reports {as : List Action} (h : ∀ a ∈ as, a.Reports) (v : LogVariable) :
    ((Action.programs id as).run v).failure = none :=
  LogProgram.Faultless.failure_eq v (Action.faultless_programs fun a ha => (h a ha).faultless)

variable (call : Call) (v : LogVariable)

/-- Calls change the context in blocks only. -/
theorem contained_program : call.program.Contained := by
  cases call with
  | read name source => exact contained_of_reports (reports_compilation name source _)
  | readStrictly name source =>
    -- Behind the reports there is only the failure that the call may end with.
    refine ⟨contained_of_reports (reports_strict name source _), ?_⟩
    cases fault? (.readStrictly name source) <;> trivial
  | validate l names failFast =>
    rw [program]
    split
    · exact contained_of_reports (reports_validation l _)
    · trivial

/-- **A call fails as the function does that it calls.** -/
theorem failure_program : (call.program.run v).failure = call.fault?.map .fault := by
  cases call with
  | read name source => exact failure_of_reports (reports_compilation name source _) v
  | readStrictly name source =>
    rw [program, LogProgram.run, failure_of_reports (reports_strict name source _) v]
    cases fault? (.readStrictly name source) <;> rfl
  | validate l names failFast =>
    rw [program, fault?]
    split
    · exact failure_of_reports (reports_validation l _) v
    · rfl

end Call

/-! ## Scoping -/

namespace LogProgram

/-- **The context is properly scoped.** In every program every block puts the context back, at any depth and
however it is left, and ends as its body does. A change of a field that there is not, alone or for a block, is
refused and changes nothing. And a call leaves the context as it was, whether it returns, fails, or is broken off
anywhere. -/
theorem properly_scoped :
    (∀ (p : LogProgram) (v : LogVariable), Observation.AllRestore v.value (p.run v).seen)
    ∧ (∀ (fields : ContextChange) (body : LogProgram) (v : LogVariable),
      ((LogProgram.bind fields body).run v).left.value = v.value
      ∧ ∀ c, v.value.change fields = .ok c →
        ((LogProgram.bind fields body).run v).failure = (body.run (v.set c).2).failure)
    ∧ (∀ fields, unknownNames fields ≠ [] → ∀ (body : LogProgram) (v : LogVariable),
      ∀ r ∈ [(LogProgram.set fields).run v, (LogProgram.bind fields body).run v],
        r.left = v ∧ r.seen = [.refused ⟨unknownNames fields⟩ v.value]
        ∧ ∃ e, r.failure = some e ∧ e.name = "TypeError")
    ∧ ∀ (call : Call) (v : LogVariable),
      (call.program.run v).left.value = v.value
      ∧ (call.program.run v).failure = call.fault?.map .fault
      ∧ ∀ f q, Interrupted f call.program q → (q.run v).left.value = v.value := by
  refine ⟨restores_run, fun fields body v => ⟨value_bind v fields body, ?_⟩, ?_, fun call v => ?_⟩
  · intro c hc
    obtain ⟨left, -, hrun⟩ := run_bind_of_ok hc body
    rw [hrun]
  · intro fields hunknown body v
    have hchange := change_of_unknown hunknown v.value
    have hset : (LogProgram.set fields).run v = .refused v ⟨unknownNames fields⟩ := by
      rw [run, hchange]
    rw [hset, run_bind_of_error hchange body]
    simp only [List.forall_mem_cons, List.not_mem_nil, false_implies, implies_true, and_true]
    exact ⟨⟨rfl, rfl, _, rfl, rfl⟩, rfl, rfl, _, rfl, rfl⟩
  · -- What is contained stays so when it is broken off, and leaves the context either way.
    have hcontained := call.contained_program
    refine ⟨hcontained.value_eq v, call.failure_program v, ?_⟩
    intro f q hq
    exact (hcontained.interrupted hq).value_eq v

/-- A change that leaves one field as it is and names one that there is not. -/
def mistaken : ContextChange := [("stage", none), ("colour", some "red")]

/-- A body that clears the context before it fails. -/
def clearing : LogProgram := .andThen .clear (.set mistaken)

/-- The fields that a call to read a source called `m` binds. -/
def naming : ContextChange := [("source_name", some "m")]

/-- A block that clears the context and then fails, a refused change, and reading that breaks off at once. -/
theorem properly_scoped_nested :
    LogContext.empty.change naming = .ok { sourceName := some "m" }
    ∧ ((LogProgram.bind naming clearing).run (.holding .empty)).failure
      = some (.unknownFields ⟨["colour"]⟩)
    ∧ ((LogProgram.bind naming clearing).run (.holding .empty)).left.value = .empty
    ∧ unknownNames mistaken ≠ []
    ∧ ((LogProgram.set mistaken).run (.holding .empty)).left = .holding .empty
    ∧ Interrupted Action.leaving (Call.read "m" "").program
      (.andThen (.bind naming (.fail Action.leaving)) .done)
    ∧ ((LogProgram.andThen (.bind naming (.fail Action.leaving)) .done).run
      (.holding .empty)).left.value = .empty := by
  have hchange : LogContext.empty.change naming = .ok { sourceName := some "m" } := rfl
  have hunknown : unknownNames mistaken ≠ [] := by decide
  have hbroken : Interrupted Action.leaving (Call.read "m" "").program
      (.andThen (.bind naming (.fail Action.leaving)) .done) :=
    .first (.bind _ (.before _)) _
  obtain ⟨-, hblock, hrefused, hcall⟩ := properly_scoped
  obtain ⟨hvalue, hends⟩ := hblock naming clearing (.holding .empty)
  obtain ⟨-, -, hinterrupted⟩ := hcall (.read "m" "") (.holding .empty)
  have hset := hrefused mistaken hunknown .done (.holding .empty) _ List.mem_cons_self
  exact ⟨hchange, hends _ hchange, hvalue, hunknown, hset.1, hbroken, hinterrupted _ _ hbroken⟩

end LogProgram

end Daybook
