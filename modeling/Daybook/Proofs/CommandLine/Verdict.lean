import Daybook.CommandLine.Response
import Daybook.Proofs.Config.Reading
import Daybook.Proofs.Text.Rows

/-!
What is said of a source that is checked.

The exit code says whether anything is wrong: with the source, or with its ledger by one of the selected checks.
It depends on nothing else, so it is the same wherever the run of the checks stops (`exit_checkAnswer`). Nothing
is said of checks if the source is wrong. Else each selected check has a line, first those that ran and then
those that did not (`verdict_checkAnswer`).
-/

namespace Daybook.CommandLine

open Text (newline_not_mem_append)
open Validation (RunsTo exists_runsTo ok_run_iff ok_of_iff)

/-- The line of a check that runs on a ledger. -/
def checkLine (l : Ledger) (c : Check) : String :=
  "Running validator: " ++ c.description ++ "... " ++ if c.run l = [] then "OK" else "ERROR"

/-- Whether anything is wrong with a source, or found by some checks on its ledger. -/
def IsWrong (source : String) (checks : List Check) : Prop :=
  (Compilation.of source).diagnostics ≠ []
    ∨ ∃ c ∈ checks, c.run (Compilation.of source).ledger ≠ []

instance (source : String) (checks : List Check) : Decidable (IsWrong source checks) :=
  inferInstanceAs (Decidable ((Compilation.of source).diagnostics ≠ []
    ∨ ∃ c ∈ checks, c.run (Compilation.of source).ledger ≠ []))

/-- What an answer says of a source, on whose ledger some checks are to run. -/
structure Verdict (source : String) (failFast : Bool) (checks : List Check) (answer : Answer) :
    Prop where
  invalid : answer.exit.number = 1 ↔ IsWrong source checks
  success : answer.exit.number = 0 ↔ ¬IsWrong source checks
  /-- Nothing is said of the checks if the source is wrong. -/
  refused : (Compilation.of source).diagnostics ≠ [] → answer.output = []
  /-- Else each of them has a line, those that ran before those that did not. -/
  checked : (Compilation.of source).diagnostics = [] → ∃ ran skipped,
    RunsTo (Compilation.of source).ledger failFast checks ran skipped
      ∧ answer.output
        = ran.map (checkLine (Compilation.of source).ledger) ++ skipped.map skippedLine
  lines : ∀ line ∈ answer.output, '\n' ∉ line.toList

/-! ## Lines -/

/-- The line for a check that ran says what the check finds in the ledger. -/
theorem outcomeLine_of (l : Ledger) (c : Check) : outcomeLine (Outcome.of l c) = checkLine l c := by
  unfold outcomeLine checkLine
  congr 1
  by_cases h : c.run l = []
  · rw [if_pos h, if_pos (ok_of_iff.2 h)]
  · rw [if_neg h, if_neg fun hok => h (ok_of_iff.1 hok)]

theorem newline_not_mem_description (c : Check) : '\n' ∉ c.description.toList := by
  cases c <;> decide +kernel

/-- The line for a check that did not run goes over no line end. -/
theorem newline_not_mem_skippedLine (c : Check) : '\n' ∉ (skippedLine c).toList := by
  apply newline_not_mem_append
  · decide
  · exact newline_not_mem_description c

/-- The line for a check that ran goes over no line end either. -/
theorem newline_not_mem_checkLine (l : Ledger) (c : Check) : '\n' ∉ (checkLine l c).toList := by
  unfold checkLine
  apply newline_not_mem_append
  · apply newline_not_mem_append
    · apply newline_not_mem_append
      · decide
      · exact newline_not_mem_description c
    · decide
  · split
    · decide
    · decide

/-! ## The answer -/

variable (level : LogLevel) (config : Config) (all : Bool) (name source : String)

/-- A source without diagnostics is validated, and the remarks on reading it come first. -/
theorem checkAnswer_of_ok (h : (Compilation.of source).diagnostics = []) :
    checkAnswer level config all name source
      = (validationAnswer level name source (Compilation.of source).ledger
          (Validation.run (Compilation.of source).ledger (config.failFast && !all) config.checks)).after
        (compileRemarks level name source (Compilation.of source)) := by
  unfold checkAnswer
  exact if_pos (List.isEmpty_iff.2 h)

/-- A source with diagnostics is invalid, and no check is run on it. -/
theorem checkAnswer_of_diagnostics (h : (Compilation.of source).diagnostics ≠ []) :
    (checkAnswer level config all name source).exit = .invalid
      ∧ (checkAnswer level config all name source).output = [] := by
  have hok : ¬(Compilation.of source).ok = true := fun hok => h (List.isEmpty_iff.1 hok)
  unfold checkAnswer
  dsimp only
  rw [if_neg hok]
  exact ⟨rfl, rfl⟩

/-- **The exit code says whether anything is wrong**, and nothing else. -/
theorem exit_checkAnswer :
    (checkAnswer level config all name source).exit
      = if IsWrong source config.checks then .invalid else .success := by
  by_cases hsource : (Compilation.of source).diagnostics = []
  · -- The run may stop early, but whether it finds anything is the same as for all checks.
    have hrun := ok_run_iff (Compilation.of source).ledger (config.failFast && !all) config.checks
    have hwrong : IsWrong source config.checks
        ↔ ¬∀ c ∈ config.checks, c.run (Compilation.of source).ledger = [] := by
      rw [IsWrong, or_iff_right (not_not_intro hsource)]
      simp only [not_forall, exists_prop, ne_eq]
    rw [checkAnswer_of_ok _ _ _ _ _ hsource]
    show (if _ then ExitCode.success else .invalid) = _
    by_cases hall : ∀ c ∈ config.checks, c.run (Compilation.of source).ledger = []
    · rw [if_pos (hrun.2 hall), if_neg fun h => hwrong.1 h hall]
    · rw [if_neg fun h => hall (hrun.1 h), if_pos (hwrong.2 hall)]
  · rw [(checkAnswer_of_diagnostics level config all name source hsource).1, if_pos (.inl hsource)]

/-- Without anything wrong in the source there is a line for each check. -/
theorem output_checkAnswer (h : (Compilation.of source).diagnostics = []) : ∃ ran skipped,
    RunsTo (Compilation.of source).ledger (config.failFast && !all) config.checks ran skipped
      ∧ (checkAnswer level config all name source).output
        = ran.map (checkLine (Compilation.of source).ledger) ++ skipped.map skippedLine := by
  obtain ⟨ran, skipped, hruns, hrun⟩ :=
    exists_runsTo (Compilation.of source).ledger (config.failFast && !all) config.checks
  refine ⟨ran, skipped, hruns, ?_⟩
  rw [checkAnswer_of_ok _ _ _ _ _ h, hrun]
  show (ran.map (Outcome.of _)).map outcomeLine ++ skipped.map skippedLine = _
  rw [List.map_map]
  congr 1
  exact List.map_congr_left fun c _ => outcomeLine_of _ c

/-- The response to arguments whose configuration and whose source can be read. -/
theorem respond_of_source {load : Loader} {read : Reader} {a : Arguments} {config : Config} {source : String}
    (hconfig : a.command.loadConfig load read = .ok config)
    (hsource : readText read a.command.file (refuseSource a.command.file) = .ok source.toList) :
    a.respond load read
      = a.command.answer (a.logLevel.getD config.logLevel) config a.command.file.text source := by
  have hproceed : a.proceed load read
      = (a.command.answer (a.logLevel.getD config.logLevel) config a.command.file.text
        source).mapError .breakdown := by
    unfold Arguments.proceed
    rw [hconfig]
    show readText read a.command.file (refuseSource a.command.file) >>= _ = _
    rw [hsource]
    show (a.command.answer _ _ _ (String.ofList source.toList)).mapError _ = _
    rw [String.ofList_toList]
  rw [Arguments.respond, hproceed]
  cases a.command.answer (a.logLevel.getD config.logLevel) config a.command.file.text source with
  | error b => rfl
  | ok answer => rfl

/-- **What is said of a source that is checked.** The selected checks are some of all checks in their order, and
the verdict is about them; where the run stops, and whether it is to stop at all, makes no difference to the exit
code. Arguments that have the source checked are answered so, however documents are loaded. -/
theorem verdict_checkAnswer (h : config.IsAccepted) :
    config.checks.Sublist Check.all
      ∧ Verdict source (config.failFast && !all) config.checks (checkAnswer level config all name source)
      ∧ (∀ failFast anyway : Bool,
        (checkAnswer level { config with failFast } anyway name source).exit
          = (checkAnswer level config all name source).exit)
      ∧ ∀ (load : Loader) (read : Reader) (a : Arguments) (file : Path) (setting : Setting Path),
        a.command = .check file setting all → a.command.loadConfig load read = .ok config →
        readText read file (refuseSource file) = .ok source.toList →
        a.respond load read
          = .ok (checkAnswer (a.logLevel.getD config.logLevel) config all file.text source) := by
  have hexit := exit_checkAnswer level config all name source
  refine ⟨h.sublist_all, ?_, ?_, ?_⟩
  · constructor
    case invalid => 
      rw [hexit]
      split <;> simp [*, ExitCode.number]
    case success => 
      rw [hexit]
      split <;> simp [*, ExitCode.number]
    case refused =>
      intro hsource
      exact (checkAnswer_of_diagnostics level config all name source hsource).2
    case checked => exact output_checkAnswer level config all name source
    case lines =>
      by_cases hsource : (Compilation.of source).diagnostics = []
      · obtain ⟨ran, skipped, -, houtput⟩ := output_checkAnswer level config all name source hsource
        rw [houtput]
        intro line hline
        rcases List.mem_append.1 hline with hline | hline
        · obtain ⟨c, -, rfl⟩ := List.mem_map.1 hline
          exact newline_not_mem_checkLine _ c
        · obtain ⟨c, -, rfl⟩ := List.mem_map.1 hline
          exact newline_not_mem_skippedLine c
      · rw [(checkAnswer_of_diagnostics level config all name source hsource).2]
        exact List.forall_mem_nil _
  · intro failFast anyway
    exact (exit_checkAnswer level { config with failFast } anyway name source).trans hexit.symm
  · intro load read a file setting hcommand hconfig hsource
    have hfile : a.command.file = file := by
      rw [hcommand]
      rfl
    rw [← hfile] at hsource ⊢
    rw [respond_of_source hconfig hsource, hcommand]
    rfl

/-- A source with a transaction that does not balance. -/
def oneLegged : String := "2020-01-01 transaction \"x\" > 1 BRL assets:cash"

/-- A document that selects two checks, the last one first. -/
def twoChecks : Value :=
  .mapping [(.text "checks", .list [.text "balance_statements", .text "credits_debits_balance"])]

/-- The first check finds something, so the other one is left out unless all are to run. -/
theorem verdict_checkAnswer_oneLegged :
    Config.ofValue twoChecks = .ok ⟨[.totals, .balances], true, .warning⟩
      ∧ (∀ anyway, (checkAnswer .warning ⟨[.totals, .balances], true, .warning⟩ anyway "book"
        oneLegged).exit.number = 1)
      ∧ (checkAnswer .warning ⟨[.totals, .balances], true, .warning⟩ false "book" oneLegged).output
        = [ "Running validator: validate that credits and debits balance... ERROR",
            "Skipped validator: validate that all balance statements are correct" ]
      ∧ (checkAnswer .warning ⟨[.totals, .balances], true, .warning⟩ true "book" oneLegged).output
        = [ "Running validator: validate that credits and debits balance... ERROR",
            "Running validator: validate that all balance statements are correct... OK" ] := by
  have hconfig : Config.ofValue twoChecks = .ok ⟨[.totals, .balances], true, .warning⟩ := rfl
  have hwrong : IsWrong oneLegged [.totals, .balances] :=
    .inr ⟨.totals, by decide, by decide +kernel⟩
  refine ⟨hconfig, ?_, ?_, ?_⟩
  · intro anyway
    exact (verdict_checkAnswer .warning _ anyway "book" oneLegged ⟨twoChecks, hconfig⟩).2.1.invalid.2
      hwrong
  · decide +kernel
  · decide +kernel

end Daybook.CommandLine
