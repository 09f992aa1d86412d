import Mathlib.Data.List.Basic
import Daybook.Validation.Outcome

/-!
Which checks run.

A run goes through the checks that were selected, and gives the outcome of each as if it were run alone. It
reaches all of them, or stops right behind the first one that finds something (`exists_runsTo`). So whether
anything is found does not depend on where it stops (`ok_run_iff`). Selecting keeps the checks in their own order,
each once (`Check.sublist_of_select`): names select the checks that have them (`Check.resolve_of_known`), and so
the names of checks in their order select just these (`Check.resolve_of_sublist`).
-/

namespace Daybook

/-- Members that are picked from a list without repetitions are picked again. -/
theorem filter_contains_of_sublist {α : Type} [DecidableEq α] {picked xs : List α}
    (h : picked.Sublist xs) (hnodup : xs.Nodup) : xs.filter picked.contains = picked := by
  induction h with
  | slnil => rfl
  | cons x hpicked ih =>
    obtain ⟨hx, hxs⟩ := List.nodup_cons.1 hnodup
    have hout : x ∉ _ := fun hmem => hx (hpicked.mem hmem)
    rw [List.filter_cons_of_neg (by simpa using hout), ih hxs]
  | cons_cons x hpicked ih =>
    obtain ⟨hx, hxs⟩ := List.nodup_cons.1 hnodup
    rw [List.filter_cons_of_pos (by simp)]
    congr 1
    -- In the rest there is no `x`, so it does not matter that `x` was picked.
    refine Eq.trans (List.filter_congr ?_) (ih hxs)
    intro y hy
    have hne : y ≠ x := by
      rintro rfl
      exact hx hy
    simp [hne]

/-! ## Selecting -/

namespace Check

theorem nodup_all : all.Nodup := by
  decide

theorem ofKey?_key (c : Check) : ofKey? c.key = some c := by
  cases c <;> rfl

/-- However checks are selected, they stand in their own order, and none of them twice. -/
theorem sublist_of_select {κ : Type} {find? : κ → Option Check} {names : List κ}
    {checks : List Check} (h : select find? names = .ok checks) : checks.Sublist all := by
  unfold select at h
  split at h
  · cases h
  · cases h
    exact List.filter_sublist

/-- Whether some check has the name. -/
def IsKnown (name : String) : Prop := ∃ c ∈ all, c.key = name

/-- The checks of which the name is given, in their own order. -/
def named (names : List String) : List Check := all.filter fun c => names.contains c.key

theorem isKnown_key (c : Check) : IsKnown c.key :=
  ⟨c, by cases c <;> decide, rfl⟩

/-- A check is found by its own key only. -/
theorem ofKey?_eq_some_iff {name : String} {c : Check} : ofKey? name = some c ↔ c.key = name := by
  constructor
  · intro h
    simpa using List.find?_some h
  · rintro rfl
    exact ofKey?_key c

/-- No check is found by an unknown name. -/
theorem isNone_ofKey?_iff {name : String} : (ofKey? name).isNone = true ↔ ¬ IsKnown name := by
  simp [ofKey?, IsKnown]

/-- **Names that checks have select these checks**, in their own order and each once. -/
theorem resolve_of_known {names : List String} (h : ∀ name ∈ names, IsKnown name) :
    resolve (some names) = .ok (named names) := by
  have hnone : names.find? (fun name => (ofKey? name).isNone) = none := by
    rw [List.find?_eq_none]
    intro name hname hunknown
    exact isNone_ofKey?_iff.1 hunknown (h name hname)
  have hwanted (c : Check) : (names.filterMap ofKey?).contains c = names.contains c.key := by
    rw [Bool.eq_iff_iff, List.contains_iff_mem, List.contains_iff_mem, List.mem_filterMap]
    simp only [ofKey?_eq_some_iff, exists_eq_right']
  show (select ofKey? names).mapError _ = _
  rw [select, hnone]
  dsimp only
  rw [List.filter_congr fun c _ => hwanted c]
  rfl

theorem key_injective : Function.Injective key := by
  intro c d h
  exact Option.some.inj ((ofKey?_key c).symm.trans ((congrArg ofKey? h).trans (ofKey?_key d)))

/-- The names of checks select these checks. -/
theorem resolve_map_key (checks : List Check) :
    resolve (some (checks.map key)) = .ok (all.filter checks.contains) := by
  have hcontains (c : Check) : (checks.map key).contains c.key = checks.contains c := by
    rw [Bool.eq_iff_iff, List.contains_iff_mem, List.contains_iff_mem,
      List.mem_map_of_injective key_injective]
  rw [resolve_of_known, named, List.filter_congr fun c _ => hcontains c]
  intro name hname
  obtain ⟨c, -, rfl⟩ := List.mem_map.1 hname
  exact isKnown_key c

/-- The keys of checks in their own order are resolved to these checks. -/
theorem resolve_of_sublist {checks : List Check} (h : checks.Sublist all) :
    resolve (some (checks.map key)) = .ok checks := by
  rw [resolve_map_key, filter_contains_of_sublist h nodup_all]

end Check

/-! ## Running -/

namespace Validation

/-- How far a run gets through the checks: all the way, or up to the first one that finds something. -/
structure RunsTo (l : Ledger) (failFast : Bool) (checks ran skipped : List Check) : Prop where
  split : checks = ran ++ skipped
  /-- Checks are left out only behind one that finds something, before which nothing was found. -/
  stopped : skipped ≠ [] → failFast = true ∧ ∃ before last,
    ran = before ++ [last] ∧ (∀ c ∈ before, c.run l = []) ∧ last.run l ≠ []
  /-- Nothing runs behind a check that finds something, if runs stop there. -/
  stops : failFast = true → ∀ before c after, ran = before ++ c :: after → c.run l ≠ [] → after = []

variable {l : Ledger} {failFast : Bool} {checks ran skipped : List Check} {c : Check}

/-- A check succeeds if it finds nothing. -/
theorem ok_of_iff : (Outcome.of l c).ok = true ↔ c.run l = [] :=
  List.isEmpty_iff

/-- A check after which the run goes on. -/
theorem RunsTo.cons (hgo : failFast = true → c.run l = []) (h : RunsTo l failFast checks ran skipped) :
    RunsTo l failFast (c :: checks) (c :: ran) skipped := by
  constructor
  case split => rw [h.split, List.cons_append]
  case stopped =>
    intro hskipped
    obtain ⟨hfast, before, last, rfl, hbefore, hlast⟩ := h.stopped hskipped
    exact ⟨hfast, c :: before, last, rfl, List.forall_mem_cons.2 ⟨hgo hfast, hbefore⟩, hlast⟩
  case stops =>
    intro hfast before other after hran hother
    cases before with
    | nil =>
      obtain ⟨rfl, rfl⟩ := List.cons.inj hran
      exact absurd (hgo hfast) hother
    | cons first before => exact h.stops hfast before other after (List.cons.inj hran).2 hother

/-- A check behind which the run stops. -/
theorem RunsTo.last (hfails : c.run l ≠ []) (rest : List Check) :
    RunsTo l true (c :: rest) [c] rest := by
  constructor
  case split => rfl
  case stopped =>
    intro _
    exact ⟨rfl, [], c, rfl, List.forall_mem_nil _, hfails⟩
  case stops =>
    intro _ before other after hran _
    cases before with
    | nil => exact (List.cons.inj hran).2.symm
    | cons first before =>
      -- There is no second check in the list of one.
      have hlength := congrArg List.length hran
      simp at hlength

/-- **A run gives the outcomes of the checks that it reaches.** -/
theorem exists_runsTo (l : Ledger) (failFast : Bool) (checks : List Check) :
    ∃ ran skipped, RunsTo l failFast checks ran skipped
      ∧ run l failFast checks = ⟨ran.map (Outcome.of l), skipped⟩ := by
  induction checks with
  | nil =>
    refine ⟨[], [], ⟨rfl, fun h => absurd rfl h, ?_⟩, rfl⟩
    intro _ before c after hran
    simp at hran
  | cons c rest ih =>
    by_cases hstop : (failFast && !(Outcome.of l c).ok) = true
    · have hrun : run l failFast (c :: rest) = ⟨[Outcome.of l c], rest⟩ := by
        rw [run]
        exact if_pos hstop
      rw [Bool.and_eq_true, Bool.not_eq_true', Bool.eq_false_iff, ne_eq, ok_of_iff] at hstop
      obtain ⟨rfl, hfails⟩ := hstop
      exact ⟨[c], rest, RunsTo.last hfails rest, hrun⟩
    · obtain ⟨ran, skipped, hruns, hrest⟩ := ih
      have hrun : run l failFast (c :: rest) = ⟨(c :: ran).map (Outcome.of l), skipped⟩ := by
        rw [run, hrest]
        exact if_neg hstop
      refine ⟨c :: ran, skipped, hruns.cons ?_, hrun⟩
      rintro rfl
      rw [Bool.true_and, Bool.not_eq_true', Bool.not_eq_false, ok_of_iff] at hstop
      exact hstop

/-- **Whether anything is found does not depend on where a run stops.** -/
theorem ok_run_iff (l : Ledger) (failFast : Bool) (checks : List Check) :
    (run l failFast checks).ok = true ↔ ∀ c ∈ checks, c.run l = [] := by
  obtain ⟨ran, skipped, hruns, hrun⟩ := exists_runsTo l failFast checks
  have hok : (run l failFast checks).ok = true ↔ ∀ c ∈ ran, c.run l = [] := by
    rw [hrun, ok, List.all_eq_true, List.forall_mem_map]
    simp only [ok_of_iff]
  rw [hok, hruns.split, List.forall_mem_append]
  constructor
  · intro hran
    refine ⟨hran, ?_⟩
    -- Nothing was skipped, for else the last check that ran would have found something.
    by_cases hskipped : skipped = []
    · rw [hskipped]
      exact List.forall_mem_nil _
    · obtain ⟨-, before, last, rfl, -, hlast⟩ := hruns.stopped hskipped
      exact absurd (hran last (by simp)) hlast
  · exact And.left

end Validation

end Daybook
