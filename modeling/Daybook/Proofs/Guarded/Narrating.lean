import Daybook.Log.Narration
import Daybook.Proofs.Guarded.Step

/-!
Reporting on the way.

The stages bind fields of the log context and report events. Binding a field that there is not is refused,
and so is an event with a field of a name that is taken. No stage does either, whatever the source holds:
the names are those in the program, and only the values come from the source (`steady_compilation`,
`steady_validation`).
-/

namespace Daybook.Guarded

/-- The names that no field of an event may have. -/
def takenNames : List String :=
  LogRecord.ownNames ++ ["message", "asctime", "taskName"]

/-- Reports an event. -/
def emit (event : LogEvent) : Guarded Unit :=
  match event.extra.find? fun field => takenNames.contains field.1 with
  | some field => .error (.field field.1)
  | none => .ok ()

mutual

/-- Runs a step of a program, which gives the context after it. -/
def act (c : LogContext) : Action → Guarded LogContext
  | .change fields => guard .context (c.change fields)
  | .clear => .ok .empty
  | .emit event => do
    emit event
    return c
  | .block fields body _ => do
    let inside ← guard .context (c.change fields)
    let _ ← actAll inside body
    return c

/-- Runs some steps one after the other. -/
def actAll (c : LogContext) : List Action → Guarded LogContext
  | [] => .ok c
  | a :: as => do
    let after ← act c a
    actAll after as

end

/-- Whether a step is accepted in every context and leaves it as it was. -/
def Steady (a : Action) : Prop :=
  ∀ c, act c a = .ok c

/-- Actions that are steady leave the context as it was, all of them together. -/
theorem actAll_of_steady {as : List Action} (h : ∀ a ∈ as, Steady a) (c : LogContext) :
    actAll c as = .ok c := by
  induction as with
  | nil => rfl
  | cons a as ih =>
    obtain ⟨ha, has⟩ := List.forall_mem_cons.1 h
    rw [actAll, bind_of_eq (ha c)]
    exact ih has

/-- A report is steady if none of its fields has a name that records keep for themselves. -/
theorem steady_report (level : LogLevel) (logger message : String) {extra : List (String × Value)}
    (h : ∀ field ∈ extra, takenNames.contains field.1 = false) :
    Steady (report level logger message extra) := by
  intro c
  have hnone : extra.find? (fun field => takenNames.contains field.1) = none := by
    rw [List.find?_eq_none]
    intro field hfield
    rw [h field hfield]
    exact Bool.false_ne_true
  rw [report, act, emit, hnone]
  rfl

/-- A block of known fields is steady if what happens inside is. -/
theorem steady_block {fields : ContextChange} {body : List Action}
    (hfields : LogContext.unknownNames fields = []) (hbody : ∀ a ∈ body, Steady a) :
    Steady (.block fields body false) := by
  intro c
  have hchange : guard .context (c.change fields)
      = .ok (fields.foldl LogContext.applyOne c) := by
    rw [LogContext.change, hfields]
    rfl
  rw [act, bind_of_eq hchange, bind_of_eq (actAll_of_steady hbody _)]
  rfl

/-! ## Reading -/

/-- The report on reading tokens is steady. -/
theorem steady_lexed (source : String) (l : Lexed) : ∀ a ∈ l.actions source, Steady a := by
  refine List.forall_mem_append.2 ⟨List.forall_mem_map.2 fun e _ => ?_, ?_⟩
  · apply steady_report
    simp only [spanFields, countField, List.cons_append, List.nil_append, List.forall_mem_cons]
    decide
  · refine List.forall_mem_singleton.2 ?_
    apply steady_report
    simp only [countField, List.forall_mem_cons]
    decide

/-- The reports on reading statements are steady. -/
theorem steady_parsed (p : Parsed) : ∀ a ∈ p.actions, Steady a := by
  refine List.forall_mem_append.2 ⟨List.forall_mem_map.2 fun e _ => ?_, ?_⟩
  · apply steady_report
    simp only [spanFields, countField, List.cons_append, List.nil_append, List.forall_mem_cons]
    decide
  · refine List.forall_mem_singleton.2 ?_
    apply steady_report
    simp only [countField, List.forall_mem_cons]
    decide

/-- The report on building a ledger is steady. -/
theorem steady_ledger (l : Ledger) : ∀ a ∈ l.actions, Steady a := by
  refine List.forall_mem_singleton.2 ?_
  apply steady_report
  simp only [countField, List.forall_mem_cons]
  decide

/-- **Reading a source reports nothing that is refused.** -/
theorem steady_compilation (sourceName source : String) (c : Compilation) :
    ∀ a ∈ c.actions sourceName source, Steady a := by
  refine List.forall_mem_singleton.2 ?_
  apply steady_block rfl
  simp only [List.forall_mem_cons]
  exact ⟨steady_block rfl (steady_lexed source c.lexed), steady_block rfl (steady_parsed c.parsed),
    steady_block rfl (steady_ledger c.ledger), List.forall_mem_nil _⟩

/-! ## Checking -/

/-- The warning about several currencies is steady, whatever field names its subject. -/
theorem steady_mixedWarning {name : String} (h : takenNames.contains name = false) (subject : Value)
    (currencies : List Currency) : ∀ a ∈ mixedWarning (name, subject) currencies, Steady a := by
  unfold mixedWarning
  split
  · exact List.forall_mem_nil _
  · refine List.forall_mem_singleton.2 ?_
    apply steady_report
    simp only [currenciesField, List.forall_mem_cons]
    exact ⟨h, by decide, List.forall_mem_nil _⟩

/-- The warnings of every check are steady. -/
theorem steady_warnings (l : Ledger) (check : Check) : ∀ a ∈ check.warnings l, Steady a := by
  cases check with
  | totals => exact List.forall_mem_nil _
  | transactions =>
    intro a ha
    obtain ⟨g, -, ha⟩ := List.mem_flatMap.1 ha
    exact steady_mixedWarning (by decide) _ _ a ha
  | balances =>
    intro a ha
    obtain ⟨b, -, ha⟩ := List.mem_flatMap.1 ha
    exact steady_mixedWarning (by decide) _ _ a ha

/-- The block around a check is steady: the name of a check is a field that contexts know. -/
theorem steady_outcome (l : Ledger) (o : Outcome) : Steady (o.actions l) := by
  apply steady_block rfl
  refine List.forall_mem_append.2 ⟨List.forall_mem_cons.2 ⟨?_, steady_warnings l o.check⟩, ?_⟩
  · exact steady_report _ _ _ (List.forall_mem_nil _)
  · refine List.forall_mem_singleton.2 ?_
    split
    · exact steady_report _ _ _ (List.forall_mem_nil _)
    · apply steady_report
      simp only [countField, List.forall_mem_cons]
      decide

/-- **Running checks reports nothing that is refused.** -/
theorem steady_validation (l : Ledger) (v : Validation) : ∀ a ∈ v.actions l, Steady a := by
  refine List.forall_mem_append.2 ⟨List.forall_mem_map.2 fun o _ => steady_outcome l o, ?_⟩
  refine List.forall_mem_singleton.2 ?_
  apply steady_report
  simp only [countField, List.forall_mem_cons]
  decide

end Daybook.Guarded
