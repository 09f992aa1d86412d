import Daybook.Proofs.Ledger.Reconstruction
import Daybook.Proofs.Source.Extent
import Daybook.Validation.Outcome

/-!
Which statement something comes from.

An entry of a ledger that was built from statements is a leg of one of them (`exists_of_mem_entries`), an
asserted balance is one of them (`exists_of_mem_assertions`), and the legs of one transaction stand next
to each other (`isInfix_filter_parent`). So what the checks find wrong with a part of the ledger is about
one of the statements, and its span is the span of that statement (`Validation.exists_of_mem_findings`).
-/

namespace Daybook

namespace Ledger

/-! ## Entries and asserted balances -/

/-- Numbering statements adds none. -/
theorem statement_mem_of_mem_enumerate {next : Nat} {ps : List (Spanned Statement)} {n : Numbered}
    (h : n ∈ enumerate next ps) : n.statement ∈ ps := by
  rw [← map_statement_enumerate next ps]
  exact List.mem_map_of_mem h

/-- An asserted balance is a statement. -/
theorem exists_of_mem_assertions {next : Nat} {ps : List (Spanned Statement)} {a : BalanceAssertion}
    (h : a ∈ (buildFrom next ps).assertions) :
    ⟨.assertion a.date a.account a.amount, a.span⟩ ∈ ps := by
  have hmem : Numbered.assertion a ∈ (buildFrom next ps).unordered :=
    List.mem_append_left _ (List.mem_append_right _ (List.mem_map_of_mem h))
  exact statement_mem_of_mem_enumerate ((perm_unordered next ps).mem_iff.1 hmem)

/-- **An entry is a leg of a statement**, and names it as its parent. -/
theorem exists_of_mem_entries {next : Nat} {ps : List (Spanned Statement)} {e : Entry}
    (h : e ∈ (buildFrom next ps).entries) : ∃ n ∈ enumerate next ps, e.parent = some n.number
      ∧ e.span = n.statement.span ∧ ∃ ms ne_nil,
        n.statement.value = .transaction e.date e.description ms ne_nil ∧ e.movement ∈ ms := by
  induction ps generalizing next with
  | nil => cases h
  | cons p ps ih =>
    obtain ⟨s, span⟩ := p
    cases s with
    | opening | assertion =>
      obtain ⟨n, hn, hentry⟩ := ih h
      exact ⟨n, List.mem_cons_of_mem _ hn, hentry⟩
    | transaction date description ms ne_nil =>
      rcases List.mem_append.1 h with hleg | hrest
      · obtain ⟨hparent, rfl, rfl⟩ := eq_of_mem_entriesFrom hleg
        obtain ⟨-, rfl⟩ := of_mem_entriesFrom hleg
        have hmovement := List.mem_map_of_mem (f := Entry.movement) hleg
        rw [map_movement_entriesFrom] at hmovement
        exact ⟨_, List.mem_cons_self, hparent, rfl, ms, ne_nil, rfl, hmovement⟩
      · obtain ⟨n, hn, hentry⟩ := ih hrest
        rw [Nat.add_assoc] at hn
        exact ⟨n, List.mem_cons_of_mem _ hn, hentry⟩

/-- Two statements do not have one number. -/
theorem eq_of_number_eq {next : Nat} {ps : List (Spanned Statement)} {m n : Numbered}
    (hm : m ∈ enumerate next ps) (hn : n ∈ enumerate next ps) (h : m.number = n.number) : m = n := by
  have hnodup : ((enumerate next ps).map (·.number)).Nodup := by
    rw [List.nodup_iff_pairwise_ne, List.pairwise_map]
    exact (pairwise_enumerate next ps).imp fun hlt => Int.ne_of_lt hlt
  exact List.inj_on_of_nodup_map hnodup hm hn h

/-- **Entries with one parent agree** in their span, their date and their description. -/
theorem eq_of_parent_eq {next : Nat} {ps : List (Spanned Statement)} {e other : Entry}
    (he : e ∈ (buildFrom next ps).entries) (hother : other ∈ (buildFrom next ps).entries)
    (h : e.parent = other.parent) :
    e.span = other.span ∧ e.date = other.date ∧ e.description = other.description := by
  obtain ⟨m, hm, hparent, hspan, ms, _, hvalue, -⟩ := exists_of_mem_entries he
  obtain ⟨n, hn, hparent', hspan', ms', _, hvalue', -⟩ := exists_of_mem_entries hother
  have hnumber : m.number = n.number := by
    rw [hparent, hparent'] at h
    exact Option.some.inj h
  obtain rfl := eq_of_number_eq hm hn hnumber
  rw [hvalue] at hvalue'
  injection hvalue' with hdate hdescription
  exact ⟨hspan.trans hspan'.symm, hdate, hdescription⟩

/-- **Entries with one parent stand next to each other.** -/
theorem isInfix_filter_parent (next : Nat) (ps : List (Spanned Statement)) (key : Int) :
    (buildFrom next ps).entries.filter (fun e => decide (e.parent = some key))
      <:+: (buildFrom next ps).entries := by
  induction ps generalizing next with
  | nil => exact List.nil_infix
  | cons p ps ih =>
    obtain ⟨s, span⟩ := p
    cases s with
    | opening | assertion => exact ih (next + 1)
    | transaction date description ms ne_nil =>
      have hmore := ih (next + 1 + ms.length)
      rw [buildFrom, List.filter_append]
      by_cases hkey : key = next
      · -- All legs of this transaction are there, and none of a later one.
        have hlegs : (entriesFrom (next + 1) next date description span ms).filter
            (fun e => decide (e.parent = some key))
              = entriesFrom (next + 1) next date description span ms := by
          apply List.filter_eq_self.2
          intro e he
          rw [(eq_of_mem_entriesFrom he).1, hkey]
          exact decide_eq_true rfl
        have hrest : (buildFrom (next + 1 + ms.length) ps).entries.filter
            (fun e => decide (e.parent = some key)) = [] := by
          apply List.filter_eq_nil_iff.2
          intro e he hparent
          have hlater := le_groupKey_of_mem_buildFrom he
          rw [decide_eq_true_iff, parent_of_mem_buildFrom he, hkey] at hparent
          have heq := Option.some.inj hparent
          omega
        rw [hlegs, hrest, List.append_nil]
        exact (List.prefix_append _ _).isInfix
      · have hlegs : (entriesFrom (next + 1) next date description span ms).filter
            (fun e => decide (e.parent = some key)) = [] := by
          apply List.filter_eq_nil_iff.2
          intro e he hparent
          rw [decide_eq_true_iff, (eq_of_mem_entriesFrom he).1] at hparent
          exact hkey (Option.some.inj hparent).symm
        rw [hlegs, List.nil_append]
        exact hmore.trans (List.suffix_append _ _).isInfix

/-- The entries of a group have the span of one statement. -/
theorem exists_of_mem_groups {next : Nat} {ps : List (Spanned Statement)} {group : Int × List Entry}
    (h : group ∈ (buildFrom next ps).groups) : ∃ p ∈ ps, ∀ e ∈ group.2, e.span = p.span := by
  obtain ⟨key, items⟩ := group
  obtain ⟨first, more, rfl⟩ := List.exists_cons_of_ne_nil (Tally.ne_nil_of_mem_groups h)
  have hmem : ∀ e ∈ first :: more, e ∈ (buildFrom next ps).entries ∧ e.parent = some key := by
    intro e he
    refine ⟨?_, (legs_of_mem_groups h).1 e he⟩
    rw [Tally.eq_filter_of_mem_groups h] at he
    exact (List.mem_filter.1 he).1
  obtain ⟨hfirst, hparent⟩ := hmem first List.mem_cons_self
  obtain ⟨n, hn, -, hspan, -⟩ := exists_of_mem_entries hfirst
  refine ⟨n.statement, statement_mem_of_mem_enumerate hn, ?_⟩
  intro e he
  obtain ⟨hentry, hparent'⟩ := hmem e he
  rw [← hspan]
  exact (eq_of_parent_eq hentry hfirst (hparent'.trans hparent.symm)).1

end Ledger

/-! ## Findings -/

namespace Check

open Ledger

variable {ps : List (Spanned Statement)} {f : Finding} {span : Span}

/-- What is found wrong with entries of one statement is about the span of that statement. -/
theorem groupFinding?_of_span {entries : List Entry} (hne : entries ≠ [])
    (hall : ∀ e ∈ entries, e.span = span) :
    groupFinding? entries = if netSum entries = 0 then none
      else some (.transaction span (netSum entries) (currenciesOf entries)) := by
  obtain ⟨first, others, rfl⟩ := List.exists_cons_of_ne_nil hne
  obtain ⟨hfirst, hothers⟩ := List.forall_mem_cons.1 hall
  have hcovering : Span.covering first.span (others.map (·.span)) = first.span := by
    apply Span.covering_of_forall
    intro s hs
    obtain ⟨e, he, rfl⟩ := List.mem_map.1 hs
    rw [hothers e he, hfirst]
  rw [groupFinding?, hcovering, hfirst]

/-- A finding about a group points at the statement that made it. -/
theorem exists_of_mem_transactionFindings (h : f ∈ transactionFindings (build ps))
    (hspan : f.span? = some span) : ∃ p ∈ ps, p.span = span := by
  obtain ⟨⟨key, items⟩, hgroup, hfinding⟩ := List.mem_filterMap.1 h
  obtain ⟨p, hp, hall⟩ := exists_of_mem_groups hgroup
  refine ⟨p, hp, ?_⟩
  dsimp only at hfinding
  rw [groupFinding?_of_span (Tally.ne_nil_of_mem_groups hgroup) hall] at hfinding
  split at hfinding
  · cases hfinding
  · rw [← Option.some.inj hfinding] at hspan
    exact Option.some.inj hspan

/-- A finding about an asserted balance points at its statement. -/
theorem exists_of_mem_balanceFindings (h : f ∈ balanceFindings (build ps))
    (hspan : f.span? = some span) : ∃ p ∈ ps, p.span = span := by
  obtain ⟨a, ha, hfinding⟩ := List.mem_filterMap.1 h
  refine ⟨_, exists_of_mem_assertions ha, ?_⟩
  simp only [assertionFinding?] at hfinding
  split at hfinding
  · cases hfinding
  · rw [← Option.some.inj hfinding] at hspan
    exact Option.some.inj hspan

/-- Whatever a check finds in a ledger built from statements, where it points there is one of them. -/
theorem exists_of_mem_run {check : Check} (h : f ∈ check.run (build ps))
    (hspan : f.span? = some span) : ∃ p ∈ ps, p.span = span := by
  cases check with
  | totals =>
    -- What is found wrong with all of the ledger is about no statement.
    simp only [run, totalFindings] at h
    split at h
    · cases h
    · rw [List.mem_singleton.1 h] at hspan
      cases hspan
  | transactions => exact exists_of_mem_transactionFindings h hspan
  | balances => exact exists_of_mem_balanceFindings h hspan

end Check

namespace Validation

/-- The findings of a run are those of its checks. -/
theorem exists_of_mem_findings_run {l : Ledger} {failFast : Bool} {checks : List Check} {f : Finding}
    (h : f ∈ (run l failFast checks).findings) : ∃ check ∈ checks, f ∈ check.run l := by
  induction checks with
  | nil => cases h
  | cons check checks ih =>
    rw [run] at h
    by_cases hstop : (failFast && !(Outcome.of l check).ok) = true
    · rw [if_pos hstop] at h
      obtain ⟨o, ho, hf⟩ := List.mem_flatMap.1 h
      rw [List.mem_singleton.1 ho] at hf
      exact ⟨check, List.mem_cons_self, hf⟩
    · rw [if_neg hstop] at h
      rcases List.mem_append.1 h with hthis | hmore
      · exact ⟨check, List.mem_cons_self, hthis⟩
      · obtain ⟨other, hother, hf⟩ := ih hmore
        exact ⟨other, List.mem_cons_of_mem _ hother, hf⟩

/-- **What is found wrong with a part of a ledger is about one statement**: its span is the span of that
statement. -/
theorem exists_of_mem_findings {ps : List (Spanned Statement)} {names : Option (List String)}
    {failFast : Bool} {v : Validation} (h : (Ledger.build ps).validate names failFast = .ok v)
    {f : Finding} (hf : f ∈ v.findings) {span : Span} (hspan : f.span? = some span) :
    ∃ p ∈ ps, p.span = span := by
  obtain ⟨checks, -, hrun⟩ := Production.bind_eq_ok.1 h
  rw [← Except.ok.inj hrun] at hf
  obtain ⟨check, -, hfinding⟩ := exists_of_mem_findings_run hf
  exact Check.exists_of_mem_run hfinding hspan

end Validation

end Daybook
