import Daybook.Proofs.Ledger.Timeline
import Daybook.Proofs.Report.BalanceSheet
import Daybook.Proofs.Syntax.Acceptance
import Daybook.Validation.Check

/-!
Asserted balances and balance sheets.

A running balance and the row of a balance sheet are sums of what the same entries add to an account, so
they are equal on every day (`balanceOn_eq_balanceOf`). Hence an asserted balance is found wrong just when
the balance sheet of its date has another one (`mem_balanceFindings_iff`).
-/

namespace Daybook

/-- The asserted balance that a finding is about. -/
def Finding.assertion? : Finding → Option BalanceAssertion
  | .balance assertion _ _ => some assertion
  | _ => none

namespace Check

open Parsed (sampleDay cash brl)

/-- **A running balance is what the balance sheet of the day says**, and nothing if it says nothing. -/
theorem balanceOn_eq_balanceOf (l : Ledger) (account : Account) (day : Date) :
    (Timeline.of account l.entries).balanceOn day
      = (BalanceSheet.of l (some day)).balanceOf account := by
  rw [Timeline.balanceOn_of, BalanceSheet.balanceOf_of, BalanceSheet.included, List.filter_comm]
  rfl

/-- The timeline that an assertion is compared with is that of its account. -/
theorem timelineOf_asserted {l : Ledger} {v : BalanceAssertion} (h : v ∈ l.assertions) :
    timelineOf (assertedTimelines l) v.account = Timeline.of v.account l.entries := by
  have haccount : v.account ∈ l.assertions.map (·.account) := List.mem_map.2 ⟨v, h, rfl⟩
  obtain ⟨t, ht, htv⟩ := Timeline.exists_mem_buildAll l.entries haccount
  rw [timelineOf]
  cases hfind : (assertedTimelines l).find? (·.account = v.account) with
  | none => exact absurd (decide_eq_true htv) (List.find?_eq_none.1 hfind t ht)
  | some found =>
    have hkey : found.account = v.account := by simpa using List.find?_some hfind
    rw [Option.getD_some, Timeline.eq_of_mem_buildAll (List.mem_of_find?_eq_some hfind), hkey]

/-- What is found wrong with an asserted balance of a ledger. -/
def balanceFinding? (l : Ledger) (v : BalanceAssertion) : Option Finding :=
  assertionFinding? (timelineOf (assertedTimelines l) v.account) v

theorem balanceFindings_eq (l : Ledger) :
    balanceFindings l = l.assertions.filterMap (balanceFinding? l) := rfl

/-- An assertion is compared with the row of its account in the sheet up to its date. -/
theorem balanceFinding?_eq {l : Ledger} {v : BalanceAssertion} (h : v ∈ l.assertions) :
    balanceFinding? l v
      = if (BalanceSheet.of l (some v.date)).balanceOf v.account = v.amount.amount then none
        else some (.balance v ((BalanceSheet.of l (some v.date)).balanceOf v.account)
          (comparedCurrencies (Timeline.of v.account l.entries) v)) := by
  rw [balanceFinding?, assertionFinding?, timelineOf_asserted h, balanceOn_eq_balanceOf]

/-- Whether the balance sheet of its date has another balance than asserted. -/
def contradicts (l : Ledger) (v : BalanceAssertion) : Bool :=
  decide (v.amount.amount ≠ (BalanceSheet.of l (some v.date)).balanceOf v.account)

/-- The finding that the balance sheet of its date has another balance than asserted. -/
def difference (l : Ledger) (v : BalanceAssertion) : Finding :=
  .balance v ((BalanceSheet.of l (some v.date)).balanceOf v.account)
    (comparedCurrencies (Timeline.of v.account l.entries) v)

/-- An assertion is found wrong just if the entries contradict it. -/
theorem balanceFinding?_of_contradicts {l : Ledger} {v : BalanceAssertion} (h : v ∈ l.assertions) :
    balanceFinding? l v = if contradicts l v = true then some (difference l v) else none := by
  simp only [balanceFinding?_eq h, contradicts, decide_eq_true_iff, ne_eq, ite_not,
    eq_comm (a := v.amount.amount)]
  rfl

/-- What is found wrong is what balance sheets contradict: one finding each, in order. -/
theorem balanceFindings_eq_map (l : Ledger) :
    balanceFindings l = (l.assertions.filter (contradicts l)).map (difference l) := by
  rw [balanceFindings_eq, ← List.filterMap_eq_map, List.filterMap_filter]
  exact List.filterMap_congr fun _ h => balanceFinding?_of_contradicts h

/-- The assertions that are found wrong are those that are contradicted, in order. -/
theorem balanceFindings_assertions (l : Ledger) :
    (balanceFindings l).map Finding.assertion? = (l.assertions.filter (contradicts l)).map some := by
  rw [balanceFindings_eq_map, List.map_map]
  rfl

/-- **Asserted balances agree with balance sheets.** For every account and day the running balance is what
the balance sheet of the day says, in every list of timelines that is built; and an asserted balance is
found wrong if and only if the balance sheet of its date has another balance for its account. -/
theorem mem_balanceFindings_iff (l : Ledger) :
    (∀ (account : Account) (day : Date), (Timeline.of account l.entries).balanceOn day
        = (BalanceSheet.of l (some day)).balanceOf account)
    ∧ (∀ (wanted : Option (List Account)) (day : Date), ∀ t ∈ Timeline.buildAll l.entries wanted,
        t.balanceOn day = (BalanceSheet.of l (some day)).balanceOf t.account)
    ∧ ∀ v ∈ l.assertions, (∃ f ∈ balanceFindings l, f.assertion? = some v)
        ↔ v.amount.amount ≠ (BalanceSheet.of l (some v.date)).balanceOf v.account := by
  refine ⟨balanceOn_eq_balanceOf l, ?_, ?_⟩
  · intro wanted day t ht
    rw [← balanceOn_eq_balanceOf, ← Timeline.eq_of_mem_buildAll ht]
  · intro v hv
    have hfound : (∃ f ∈ balanceFindings l, f.assertion? = some v)
        ↔ v ∈ l.assertions.filter (contradicts l) := by
      rw [← List.mem_map, balanceFindings_assertions, List.mem_map]
      constructor
      · rintro ⟨w, hw, heq⟩
        rw [← Option.some.inj heq]
        exact hw
      · intro hmem
        exact ⟨v, hmem, rfl⟩
    rw [hfound, List.mem_filter, contradicts, decide_eq_true_iff]
    exact and_iff_right hv

/-- A month after the sample day. -/
def nextMonth : Date := { sampleDay with month := 2, month_bounds := by decide, day_bounds := by decide }

/-- Two debits of cash, the later one first. -/
def cashEntries : List Entry :=
  [ ⟨1, nextMonth, "", .debit, cash, ⟨3, brl⟩, .point 0, none⟩,
    ⟨2, sampleDay, "", .debit, cash, ⟨1, brl⟩, .point 0, none⟩ ]

/-- The balance of cash is asserted on both days, on the second one without the first debit. -/
def cashLedger : Ledger where
  entries := cashEntries
  assertions := [⟨3, cash, sampleDay, ⟨1, brl⟩, .point 0⟩, ⟨4, cash, nextMonth, ⟨3, brl⟩, .point 0⟩]

/-- Two assertions over one account, of which the later one is wrong. -/
theorem mem_balanceFindings_iff_cash :
    (Timeline.of cash cashEntries).balanceOn nextMonth = 4
    ∧ (¬ ∃ f ∈ balanceFindings cashLedger,
        f.assertion? = some ⟨3, cash, sampleDay, ⟨1, brl⟩, .point 0⟩)
    ∧ ∃ f ∈ balanceFindings cashLedger,
        f.assertion? = some ⟨4, cash, nextMonth, ⟨3, brl⟩, .point 0⟩ := by
  have hfirst : (BalanceSheet.of cashLedger (some sampleDay)).balanceOf cash = 1 := by decide +kernel
  have hsecond : (BalanceSheet.of cashLedger (some nextMonth)).balanceOf cash = 4 := by decide +kernel
  obtain ⟨hbalance, -, hiff⟩ := mem_balanceFindings_iff cashLedger
  refine ⟨(hbalance cash nextMonth).trans hsecond, ?_, ?_⟩
  · rw [hiff _ List.mem_cons_self, hfirst]
    exact not_not.2 rfl
  · rw [hiff _ (List.mem_cons_of_mem _ (List.mem_singleton_self _)), hsecond]
    decide

end Check

end Daybook
