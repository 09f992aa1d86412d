import Daybook.Proofs.CommandLine.Verdict
import Daybook.Proofs.Guarded.Pipeline

/-!
Commands that do not break off.

The command that checks a source resolves the names of the checks, and again those of the checks that were left
out; it takes the first failure out of a list, and counts what is wrong in a number. The command that prints
balances lays out a table. None of these steps breaks off, so whatever is answered about a source is answered in
guarded steps too (`command_eq`).
-/

namespace Daybook.Guarded

open CommandLine
open Text.Utf8 (width)
open Numeral (digitLimit)

-- Powers are those of the core library, whatever else is in scope.
attribute [local instance (high)] instPowNat

/-- Whether a source is short enough for the numbers of its lines and diagnostics to be converted in one step,
as every source is that fits into a memory. -/
structure Fits (source : String) : Prop where
  width_lt : width source.toList + 1 < 10 ^ digitLimit
  diagnostics_lt : (Compilation.of source).diagnostics.length < 10 ^ digitLimit

variable (level : LogLevel) (name source : String)

/-! ## Remarks -/

/-- A notice with an empty line after it. -/
def noticed (n : Notice) : Guarded (List Remark) := do
  let text ← rendered source name n
  return [.text text, .text ""]

/-- What is said of reading a source. -/
def compileRemarks (c : Compilation) : Guarded (List Remark) := do
  let _ ← actAll .empty (c.actions name source)
  let notices ← c.diagnostics.mapM fun d => noticed name source d.notice
  return logged level (c.actions name source) ++ notices.flatten

variable {source} in
/-- A notice of a source of possible size is written, with the empty line after it. -/
theorem noticed_eq (h : Fits source) (n : Notice) :
    noticed name source n = .ok (CommandLine.noticed name source n) := by
  rw [noticed, bind_of_eq (rendered_eq name n h.width_lt)]
  rfl

variable {source} in
/-- All remarks on reading a source are written. -/
theorem compileRemarks_eq (h : Fits source) (c : Compilation) :
    compileRemarks level name source c = .ok (CommandLine.compileRemarks level name source c) := by
  have hactions := actAll_of_steady (steady_compilation name source c) .empty
  have hnotices := mapM_eq (fun d : Diagnostic => noticed_eq name h d.notice) c.diagnostics
  rw [compileRemarks, bind_of_eq hactions, bind_of_eq hnotices]
  rfl

/-! ## Checking -/

/-- The line of a check that ran. -/
def reportedLine (o : Reported) : String :=
  "Running validator: " ++ o.check.description ++ "... "
    ++ if o.notices.isEmpty then "OK" else "ERROR"

/-- The checks that reported something. -/
def Report.failures (r : Report) : List Reported :=
  r.outcomes.filter fun o => !o.notices.isEmpty

/-- What is said of the first failure, which is looked up if there is any. -/
def verdict (r : Report) : Guarded (List Remark) :=
  if r.outcomes.all fun o => o.notices.isEmpty then .ok []
  else do
    let o ← item r.failures 0
    return [.text ("Running validation `" ++ o.check.description ++ "` failed.")]

/-- The answer about a ledger on which checks are to run. -/
def validationAnswer (l : Ledger) (failFast : Bool) (checks : List Check) : Guarded Answer := do
  let v ← guard .check (l.validate (names (some checks)) failFast)
  let report ← validated l (names (some checks)) failFast
  let _ ← actAll .empty (v.actions l)
  let notices ← report.outcomes.mapM fun o => o.notices.mapM (noticed name source)
  let skipped ← guard .check (Check.resolve (names (some report.skipped)))
  let verdict ← verdict report
  return {
    exit := if report.outcomes.all fun o => o.notices.isEmpty then .success else .invalid
    output := report.outcomes.map reportedLine ++ skipped.map skippedLine
    remarks := logged level (v.actions l) ++ notices.flatten.flatten ++ verdict }

/-- Runs the checks on a source. -/
def checkAnswer (config : Config) (all : Bool) : Guarded Answer := do
  let c ← compiled source
  let remarks ← compileRemarks level name source c
  if c.ok then
    let answer ← validationAnswer level name source c.ledger (config.failFast && !all) config.checks
    return answer.after remarks
  else
    let number ← count c.diagnostics.length
    return ⟨.invalid, [], remarks ++ [.text (name ++ ": " ++ number ++ " error(s), not validated.")]⟩

@[simp] theorem check_of (o : Outcome) : (Reported.of o).check = o.check := rfl

@[simp] theorem isEmpty_notices (o : Outcome) : (Reported.of o).notices.isEmpty = o.ok :=
  List.isEmpty_map

/-- The line for a check is made from its report just as from its outcome. -/
theorem reportedLine_of (o : Outcome) : reportedLine (.of o) = outcomeLine o := by
  unfold reportedLine outcomeLine
  rw [isEmpty_notices, check_of]

/-- A report without notices is that of a ledger on which all checks succeed. -/
theorem all_isEmpty_of (v : Validation) :
    ((Report.of v).outcomes.all fun o => o.notices.isEmpty) = v.ok := by
  rw [Report.of, List.all_map]
  congr 1
  exact funext isEmpty_notices

/-- The checks that failed are those with notices. -/
theorem failures_of (v : Validation) : (Report.of v).failures = v.failures.map Reported.of := by
  rw [Report.failures, Report.of, List.filter_map]
  congr 2
  funext o
  exact congrArg (! ·) (isEmpty_notices o)

/-- A run is fine just if it has no failures. -/
theorem ok_iff_failures (v : Validation) : v.ok = true ↔ v.failures = [] := by
  rw [Validation.ok, Validation.failures, List.all_eq_true, List.filter_eq_nil_iff]
  simp

/-- **A run that is not fine has a first failure.** -/
theorem verdict_of (v : Validation) : verdict (.of v) = .ok (match v.firstFailure? with
    | some o => [.text ("Running validation `" ++ o.check.description ++ "` failed.")]
    | none => []) := by
  unfold verdict Validation.firstFailure?
  rw [all_isEmpty_of, failures_of]
  by_cases hok : v.ok = true
  · rw [if_pos hok, (ok_iff_failures v).1 hok]
    rfl
  · rw [if_neg hok]
    cases hfailures : v.failures with
    | nil => exact absurd ((ok_iff_failures v).2 hfailures) hok
    | cons o rest => rfl

/-- The notices of all checks together are those of all findings. -/
theorem flatten_notices {α : Type} (f : Notice → List α) (outcomes : List Outcome) :
    ((outcomes.map Reported.of).map fun o => o.notices.map f).flatten.flatten
      = (outcomes.flatMap (·.findings)).flatMap fun x => f x.notice := by
  induction outcomes with
  | nil => rfl
  | cons o outcomes ih =>
    rw [List.map_cons, List.map_cons, List.flatten_cons, List.flatten_append, ih, List.flatMap_cons,
      List.flatMap_append, Reported.of, List.map_map]
    rfl

/-- The checks that were left out are found again by their names. -/
theorem resolve_skipped {checks : List Check} (hchecks : checks.Sublist Check.all) (l : Ledger)
    (failFast : Bool) :
    Check.resolve (names (some (Validation.run l failFast checks).skipped))
      = .ok (Validation.run l failFast checks).skipped := by
  obtain ⟨ran, skipped, hruns, hrun⟩ := Validation.exists_runsTo l failFast checks
  have hskipped : skipped.Sublist checks := by
    rw [hruns.split]
    exact List.sublist_append_right ran skipped
  rw [hrun]
  exact Check.resolve_of_sublist (hskipped.trans hchecks)

/-- **Checks that stand in their own order run**, and the answer is about all that they find. -/
theorem validationAnswer_eq {source : String} (h : Fits source) (l : Ledger) (failFast : Bool)
    {checks : List Check} (hchecks : checks.Sublist Check.all) :
    validationAnswer level name source l failFast checks
      = .ok (CommandLine.validationAnswer level name source l
        (Validation.run l failFast checks)) := by
  have hchosen : chosen (some checks) = checks :=
    filter_contains_of_sublist hchecks Check.nodup_all
  have hvalidate := validate_names l (some checks) failFast
  have hvalidated := validated_eq l (some checks) failFast
  have hresolve := resolve_skipped hchecks l failFast
  rw [hchosen] at hvalidate hvalidated
  -- From here on it does not matter which checks were run, only what the run gave.
  generalize Validation.run l failFast checks = v at hvalidate hvalidated hresolve
  have hactions := actAll_of_steady (steady_validation l v) .empty
  have hnotices := mapM_eq (fun o : Reported => mapM_eq (noticed_eq name h) o.notices)
    (Report.of v).outcomes
  have hlines : (Report.of v).outcomes.map reportedLine = v.outcomes.map outcomeLine := by
    rw [Report.of, List.map_map]
    exact List.map_congr_left fun o _ => reportedLine_of o
  rw [validationAnswer, bind_of_eq (guard_of_eq hvalidate), bind_of_eq hvalidated,
    bind_of_eq hactions, bind_of_eq hnotices]
  show guard .check (Check.resolve (names (some v.skipped))) >>= _ = _
  rw [bind_of_eq (guard_of_eq hresolve), bind_of_eq (verdict_of v), all_isEmpty_of, hlines]
  show Except.ok (Answer.mk _ _ (_ ++ (((v.outcomes.map Reported.of).map fun o =>
    o.notices.map (CommandLine.noticed name source)).flatten.flatten) ++ _)) = _
  -- The notices are in lists of lists, one for each notice and one for each check.
  rw [flatten_notices]
  rfl

/-- **Every source is checked**, by whatever configuration is accepted. -/
theorem checkAnswer_eq {source : String} (h : Fits source) {config : Config}
    (hconfig : config.IsAccepted) (all : Bool) :
    checkAnswer level name source config all
      = .ok (CommandLine.checkAnswer level config all name source) := by
  rw [checkAnswer, bind_of_eq (compiled_eq source), bind_of_eq (compileRemarks_eq level name h _)]
  unfold CommandLine.checkAnswer
  dsimp only
  by_cases hok : (Compilation.of source).ok = true
  · rw [if_pos hok, if_pos hok,
      bind_of_eq (validationAnswer_eq level name h _ _ hconfig.sublist_all)]
    rfl
  · rw [if_neg hok, if_neg hok, bind_of_eq (count_of_lt h.diagnostics_lt)]
    rfl

/-! ## Printing balances -/

/-- Prints the balances of a source. -/
def balanceAnswer (asOf : Option Date) : Guarded Answer := do
  let c ← compiled source
  let remarks ← compileRemarks level name source c
  if c.ok then
    let text ← sheet (BalanceSheet.of c.ledger asOf)
    return ⟨.success, [text], remarks⟩
  else return ⟨.invalid, [], remarks⟩

/-- **The balances of every source are printed.** -/
theorem balanceAnswer_eq {source : String} (h : Fits source) {asOf : Setting Date}
    (hasOf : asOf ≠ .void) : ∃ answer, balanceAnswer level name source asOf.value? = .ok answer
      ∧ CommandLine.balanceAnswer level asOf name source = .ok answer := by
  have hcutOff : cutOff (Compilation.of source).ledger asOf = .ok asOf.value? := by
    cases asOf with
    | absent => rfl
    | value date => rfl
    | void => exact absurd rfl hasOf
  rw [balanceAnswer, bind_of_eq (compiled_eq source),
    bind_of_eq (compileRemarks_eq level name h _)]
  unfold CommandLine.balanceAnswer
  dsimp only
  by_cases hok : (Compilation.of source).ok = true
  · rw [if_pos hok, if_pos hok, bind_of_eq (sheet_eq _), hcutOff]
    exact ⟨_, rfl, rfl⟩
  · rw [if_neg hok, if_neg hok]
    exact ⟨_, rfl, rfl⟩

/-! ## Both commands -/

/-- The answer about a source. -/
def command (config : Config) : Command → Guarded Answer
  | .check _ _ all => checkAnswer level name source config all
  | .balance _ asOf => balanceAnswer level name source asOf.value?

/-- **No command breaks off**, whatever the source holds: it gives the answer that the program gives. -/
theorem command_eq {source : String} (h : Fits source) {config : Config}
    (hconfig : config.IsAccepted) (c : Command) (hdated : ∀ file, c ≠ .balance file .void) :
    ∃ answer, command level name source config c = .ok answer
      ∧ c.answer level config name source = .ok answer := by
  cases c with
  | check file setting all => exact ⟨_, checkAnswer_eq level name h hconfig all, rfl⟩
  | balance file asOf =>
    apply balanceAnswer_eq level name h
    rintro rfl
    exact hdated file rfl

end Daybook.Guarded
