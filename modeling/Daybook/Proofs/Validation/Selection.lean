import Daybook.Proofs.Validation.Running

/-!
Selecting checks, and stopping at the first that finds something.

A name that no check has is refused, the first one if there are several (`Check.resolve_of_unknown`), and then no
check is started (`watch_eq`). A run that stops at the first failure has the same outcomes as one that does not,
up to and including that failure (`stopsAtFailure_run`); so the two agree on whether anything fails and on what
fails first. Together this says all that names and early stopping can do to a validation
(`validate_refused_or_agree`).
-/

namespace Daybook

namespace Check

/-! ## Names that no check has -/

/-- The first name that no check has is refused. -/
theorem resolve_of_unknown {before after : List String} {name : String}
    (hbefore : ∀ n ∈ before, IsKnown n) (hname : ¬ IsKnown name) :
    resolve (some (before ++ name :: after)) = .error ⟨.text name⟩ := by
  have hfind : (before ++ name :: after).find? (fun name => (ofKey? name).isNone) = some name := by
    rw [List.find?_eq_some_iff_append]
    refine ⟨isNone_ofKey?_iff.2 hname, before, after, rfl, ?_⟩
    intro n hn
    rw [Bool.not_eq_true', Bool.eq_false_iff, ne_eq, isNone_ofKey?_iff, not_not]
    exact hbefore n hn
  show (select ofKey? _).mapError _ = _
  rw [select, hfind]
  rfl

/-- Either some name is the first that no check has, or checks have all of them. -/
theorem exists_first_unknown (names : List String) :
    (∃ before name after, names = before ++ name :: after ∧ (∀ n ∈ before, IsKnown n)
      ∧ ¬ IsKnown name) ∨ ∀ n ∈ names, IsKnown n := by
  cases hfind : names.find? fun name => (ofKey? name).isNone with
  | none =>
    right
    intro n hn
    by_contra hunknown
    exact List.find?_eq_none.1 hfind n hn (isNone_ofKey?_iff.2 hunknown)
  | some name =>
    left
    obtain ⟨hname, before, after, rfl, hbefore⟩ := List.find?_eq_some_iff_append.1 hfind
    refine ⟨before, name, after, rfl, ?_, isNone_ofKey?_iff.1 hname⟩
    intro n hn
    by_contra hunknown
    have hsome := hbefore n hn
    rw [isNone_ofKey?_iff.2 hunknown] at hsome
    cases hsome

end Check

namespace Validation

variable {l : Ledger} {failFast : Bool} {checks : List Check}

/-! ## Which checks are started -/

/-- Steps that may be refused, and that keep which checks were started. -/
abbrev Watched := ExceptT UnknownCheck (StateM (List Check))

/-- Runs checks on a ledger, each of which is noted when it is started. -/
def runWatched (l : Ledger) (failFast : Bool) : List Check → Watched Validation
  | [] => return ⟨[], []⟩
  | c :: checks => do
    modify (· ++ [c])
    let outcome := Outcome.of l c
    if failFast && !outcome.ok then return ⟨[outcome], checks⟩
    else
      let rest ← runWatched l failFast checks
      return ⟨outcome :: rest.outcomes, rest.skipped⟩

/-- What running the checks with the given names leads to, and which checks are started. -/
def watch (l : Ledger) (names : Option (List String)) (failFast : Bool) :
    Except UnknownCheck Validation × List Check :=
  let steps : Watched Validation := do
    let checks ← liftExcept (Check.resolve names)
    runWatched l failFast checks
  steps.run.run []

/-- A check is noted first, and then it runs. -/
theorem runWatched_cons (l : Ledger) (failFast : Bool) (c : Check) (checks started : List Check) :
    (runWatched l failFast (c :: checks)).run.run started
      = (if failFast && !(Outcome.of l c).ok then return ⟨[Outcome.of l c], checks⟩
        else do
          let rest ← runWatched l failFast checks
          return ⟨Outcome.of l c :: rest.outcomes, rest.skipped⟩ : Watched Validation).run.run
        (started ++ [c]) := rfl

/-- A step that succeeds hands on what it gives and what it noted. -/
theorem run_bind_of_ok {α β : Type} {x : Watched α} {started after : List Check} {a : α}
    (h : x.run.run started = (.ok a, after)) (f : α → Watched β) :
    (x >>= f).run.run started = (f a).run.run after := by
  rw [ExceptT.run_bind, StateT.run_bind, h]
  rfl

/-- A watched run is the run, and starts the checks whose outcomes it has. -/
theorem runWatched_eq (l : Ledger) (failFast : Bool) (checks started : List Check) :
    (runWatched l failFast checks).run.run started
      = (.ok (run l failFast checks),
          started ++ (run l failFast checks).outcomes.map (·.check)) := by
  induction checks generalizing started with
  | nil =>
    rw [run, List.map_nil, List.append_nil]
    rfl
  | cons c checks ih =>
    rw [runWatched_cons, run]
    dsimp only
    by_cases hstop : (failFast && !(Outcome.of l c).ok) = true
    · rw [if_pos hstop, if_pos hstop]
      rfl
    · rw [if_neg hstop, if_neg hstop, run_bind_of_ok (ih _), List.append_assoc]
      rfl

/-- **What is noted does not change what a validation leads to.** The checks with outcomes were started, in
their order, and no others; none is started if a name is refused. -/
theorem watch_eq (l : Ledger) (names : Option (List String)) (failFast : Bool) :
    watch l names failFast
      = (l.validate names failFast, match l.validate names failFast with
          | .ok v => v.outcomes.map (·.check)
          | .error _ => []) := by
  rw [watch, Ledger.validate]
  cases Check.resolve names with
  | error e => rfl
  | ok checks => exact runWatched_eq l failFast checks []

/-! ## Stopping at the first failure -/

/-- How outcomes are cut behind the first one that failed; if none failed they are not cut. -/
inductive StopsAtFailure : List Outcome → List Outcome → Prop
  | whole {full : List Outcome} : (∀ o ∈ full, o.ok = true) → StopsAtFailure full full
  | stopped {before after : List Outcome} {failure : Outcome} :
    (∀ o ∈ before, o.ok = true) → failure.ok = false →
    StopsAtFailure (before ++ failure :: after) (before ++ [failure])

/-- A run that does not stop has an outcome for every check, and skips none. -/
theorem run_false (l : Ledger) (checks : List Check) :
    run l false checks = ⟨checks.map (Outcome.of l), []⟩ := by
  obtain ⟨ran, skipped, hruns, hrun⟩ := exists_runsTo l false checks
  have hskipped : skipped = [] := by
    by_contra hne
    cases (hruns.stopped hne).1
  rw [hrun, hruns.split, hskipped, List.append_nil]

/-- Checks that find nothing have succeeded. -/
theorem all_ok_of {ran : List Check} (h : ∀ c ∈ ran, c.run l = []) :
    ∀ o ∈ ran.map (Outcome.of l), o.ok = true :=
  List.forall_mem_map.2 fun c hc => ok_of_iff.2 (h c hc)

/-- A check that finds something has failed. -/
theorem ok_eq_false_of {c : Check} (h : c.run l ≠ []) : (Outcome.of l c).ok = false := by
  rw [Bool.eq_false_iff, ne_eq, ok_of_iff]
  exact h

/-- **A run that stops has the outcomes of one that does not, up to the first failure.** -/
theorem stopsAtFailure_run (l : Ledger) (checks : List Check) :
    StopsAtFailure (run l false checks).outcomes (run l true checks).outcomes := by
  obtain ⟨ran, skipped, hruns, hrun⟩ := exists_runsTo l true checks
  rw [run_false, hrun]
  dsimp only
  by_cases hskipped : skipped = []
  · rw [hruns.split, hskipped, List.append_nil]
    cases hfind : ran.find? fun c => decide (c.run l ≠ []) with
    | none =>
      refine .whole (all_ok_of fun c hc => ?_)
      simpa using List.find?_eq_none.1 hfind c hc
    | some c =>
      -- The first check that fails is the last one that runs.
      obtain ⟨hfails, before, after, rfl, hbefore⟩ := List.find?_eq_some_iff_append.1 hfind
      rw [decide_eq_true_iff] at hfails
      rw [hruns.stops rfl before c after rfl hfails, List.map_append]
      exact .stopped (all_ok_of fun c hc => by simpa using hbefore c hc) (ok_eq_false_of hfails)
  · obtain ⟨-, before, last, rfl, hbefore, hlast⟩ := hruns.stopped hskipped
    rw [hruns.split, List.append_assoc, List.singleton_append, List.map_append, List.map_append]
    exact .stopped (all_ok_of hbefore) (ok_eq_false_of hlast)

/-- Stopping at a failure leaves out outcomes at the end only. -/
theorem StopsAtFailure.isPrefix {full fast : List Outcome} (h : StopsAtFailure full fast) :
    fast <+: full := by
  cases h with
  | whole _ => exact List.prefix_rfl
  | stopped _ _ =>
    rw [List.prefix_append_right_inj]
    exact List.cons_prefix_cons.2 ⟨rfl, List.nil_prefix⟩

/-- The first failure is in front of the cut. -/
theorem StopsAtFailure.firstFailure?_eq {full fast : List Outcome} (h : StopsAtFailure full fast)
    (skipped others : List Check) :
    firstFailure? ⟨fast, skipped⟩ = firstFailure? ⟨full, others⟩ := by
  cases h with
  | whole _ => rfl
  | stopped hbefore hfailure =>
    simp only [firstFailure?, failures, List.filter_append, List.filter_cons, hfailure,
      Bool.not_false, if_true]
    rw [List.filter_eq_nil_iff.2 fun o ho => by rw [hbefore o ho]; decide]
    rfl

/-! ## Selected checks -/

/-- How the run of some checks that stops at a failure and the run that does not agree, with each other and with
the run of all checks. -/
structure Agree (checks : List Check) (full fast everything : Validation) : Prop where
  ran : full.outcomes.map (·.check) = checks
  /-- The checks that did not run are behind those that did. -/
  split : fast.outcomes.map (·.check.key) ++ fast.skipped.map Check.key = checks.map Check.key
  stops : StopsAtFailure full.outcomes fast.outcomes
  isPrefix : fast.outcomes <+: full.outcomes
  ok : fast.ok = full.ok
  firstFailure : fast.firstFailure? = full.firstFailure?
  /-- What a check found is what it finds when all checks run. -/
  same : ∀ o ∈ full.outcomes, everything.outcome? o.check.key = some o

/-- In a run of all checks each one has its outcome. -/
theorem outcome?_run_all (l : Ledger) (c : Check) :
    (run l false Check.all).outcome? c.key = some (Outcome.of l c) := by
  rw [run_false]
  cases c <;> rfl

/-- Runs over one selection agree, whether they stop or not, and with the run of all checks. -/
theorem agree_run (l : Ledger) (checks : List Check) :
    Agree checks (run l false checks) (run l true checks) (run l false Check.all) where
  ran := by
    rw [run_false, List.map_map]
    exact List.map_id checks
  split := by
    obtain ⟨ran, skipped, hruns, hrun⟩ := exists_runsTo l true checks
    rw [hrun, hruns.split, List.map_append, List.map_map]
    rfl
  stops := stopsAtFailure_run l checks
  isPrefix := (stopsAtFailure_run l checks).isPrefix
  ok := by rw [Bool.eq_iff_iff, ok_run_iff, ok_run_iff]
  firstFailure := (stopsAtFailure_run l checks).firstFailure?_eq _ _
  same o ho := by
    rw [run_false] at ho
    obtain ⟨c, -, rfl⟩ := List.mem_map.1 ho
    exact outcome?_run_all l c

/-- Names that are resolved are the checks that run. -/
theorem validate_of_resolve {names : List String} (h : Check.resolve (some names) = .ok checks)
    (l : Ledger) (failFast : Bool) :
    l.validate (some names) failFast = .ok (run l failFast checks) := by
  rw [Ledger.validate, h]
  rfl

/-- **Selecting checks and stopping early do not change what is found.** If no check has one of the names, the
first such name is refused whatever the ledger, and no check is started. Otherwise the checks that have the
names run in their own order, with the outcomes that they have when all checks run; a run that stops at a
failure has those up to the first failure and leaves out the checks behind it, and both runs agree on whether
anything failed and on what failed first. -/
theorem validate_refused_or_agree (names : List String) :
    (∃ before name after, names = before ++ name :: after
      ∧ (∀ n ∈ before, Check.IsKnown n) ∧ ¬ Check.IsKnown name
      ∧ ∀ (l : Ledger) failFast, l.validate (some names) failFast = .error ⟨.text name⟩
        ∧ watch l (some names) failFast = (.error ⟨.text name⟩, []))
    ∨ ((∀ n ∈ names, Check.IsKnown n)
      ∧ ∀ l : Ledger, ∃ full fast everything : Validation,
        l.validate (some names) false = .ok full
        ∧ l.validate (some names) true = .ok fast
        ∧ l.validate none false = .ok everything
        ∧ Agree (Check.named names) full fast everything) := by
  rcases Check.exists_first_unknown names with ⟨before, name, after, rfl, hbefore, hname⟩ | hknown
  · left
    refine ⟨before, name, after, rfl, hbefore, hname, ?_⟩
    intro l failFast
    have hrefused : l.validate (some (before ++ name :: after)) failFast = .error ⟨.text name⟩ := by
      rw [Ledger.validate, Check.resolve_of_unknown hbefore hname]
      rfl
    exact ⟨hrefused, by rw [watch_eq, hrefused]⟩
  · right
    have hresolve := Check.resolve_of_known hknown
    refine ⟨hknown, fun l => ⟨_, _, _, validate_of_resolve hresolve l false,
      validate_of_resolve hresolve l true, rfl, agree_run l (Check.named names)⟩⟩

end Validation

end Daybook
