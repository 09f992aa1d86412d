import Daybook.Proofs.Data.Tally
import Daybook.Proofs.Numeric.Amount
import Daybook.Proofs.Syntax.Acceptance
import Daybook.Validation.Check

/-!
What the credits are more than the debits.

The excess of the credits of a ledger over its debits is the sum of what its entries are with their signs
(`netSum_entries`), and so it is the sum of the excesses of its transactions, however entries are numbered
(`netSum_groups`). A transaction without a finding adds nothing to it. So the first two checks agree, and
the amounts that they report add up (`grossSum_sub_eq_sum`).
-/

namespace Daybook

theorem Entry.not_isCredit_eq (e : Entry) : (!e.isCredit) = decide (e.direction = .debit) := by
  rw [Entry.isCredit]
  cases e.direction <;> rfl

/-- The amount that was found, read back from its text. -/
def Finding.foundAmount? (f : Finding) : Option Rat :=
  Amount.read? f.found.toList

namespace Check

open Parsed (sampleDay cash brl)

theorem grossSum_eq_sumOf (entries : List Entry) :
    grossSum entries = sumOf (·.amount.amount) entries := rfl

theorem netSum_eq_sumOf (entries : List Entry) : netSum entries = sumOf Entry.signed entries := rfl

/-- Entries with their signs add up to their credits less their debits. -/
theorem netSum_eq_sub (entries : List Entry) :
    netSum entries
      = grossSum (entries.filter Entry.isCredit) - grossSum (entries.filter fun e => !e.isCredit) := by
  have hsplit : ∀ e ∈ entries, e.signed
      = (if e.isCredit = true then e.amount.amount else 0)
        + -(if (!e.isCredit) = true then e.amount.amount else 0) := by
    intro e _
    rw [Entry.signed]
    cases e.isCredit with
    | true => simp only [if_true, Bool.not_true, Bool.false_eq_true, if_false, neg_zero, add_zero]
    | false => simp only [Bool.false_eq_true, if_false, Bool.not_false, if_true, zero_add]
  calc netSum entries
      = sumOf (fun e => (if e.isCredit = true then e.amount.amount else 0)
          + -(if (!e.isCredit) = true then e.amount.amount else 0)) entries := sumOf_congr hsplit
    _ = grossSum (entries.filter Entry.isCredit)
          - grossSum (entries.filter fun e => !e.isCredit) := by
        rw [sumOf_add, sumOf_neg, ← sumOf_filter, ← sumOf_filter, ← sub_eq_add_neg]
        rfl

/-- The same with the sides as directions. -/
theorem netSum_eq_sides (entries : List Entry) :
    netSum entries
      = grossSum (entries.filter fun e => decide (e.direction = .credit))
        - grossSum (entries.filter fun e => decide (e.direction = .debit)) := by
  rw [netSum_eq_sub]
  simp only [Entry.not_isCredit_eq]
  rfl

/-- The net sum of a ledger is what its credits exceed its debits by. -/
theorem netSum_entries (l : Ledger) :
    netSum l.entries = grossSum l.credits - grossSum l.debits :=
  netSum_eq_sub l.entries

/-- **Every entry is in one transaction**, so the excesses of the transactions are that of the ledger. -/
theorem netSum_groups (l : Ledger) : sumOf netSum (l.groups.map (·.2)) = netSum l.entries := by
  rw [sumOf_map]
  exact Tally.sumOf_groups Entry.groupKey Entry.signed l.entries

/-! ## Findings -/

theorem totalFindings_eq (l : Ledger) :
    totalFindings l = if grossSum l.credits = grossSum l.debits then []
      else [.totals (grossSum l.credits - grossSum l.debits) (currenciesOf l.entries)] := rfl

/-- The findings about groups are found group by group. -/
theorem transactionFindings_eq (l : Ledger) :
    transactionFindings l = (l.groups.map (·.2)).filterMap groupFinding? := by
  rw [List.filterMap_map]
  rfl

/-- The totals agree if the net sum is zero. -/
theorem totalFindings_eq_nil_iff (l : Ledger) : totalFindings l = [] ↔ netSum l.entries = 0 := by
  rw [netSum_entries, sub_eq_zero, totalFindings_eq]
  by_cases h : grossSum l.credits = grossSum l.debits
  · simp only [h, if_true]
  · simp only [h, if_false, List.cons_ne_nil]

/-- What is found wrong with the totals is the net sum. -/
theorem foundAmount?_of_mem_totalFindings {l : Ledger} {f : Finding} (h : f ∈ totalFindings l) :
    f.foundAmount? = some (netSum l.entries) := by
  rw [totalFindings_eq] at h
  split at h
  · cases h
  · rw [List.mem_singleton.1 h, Finding.foundAmount?, Finding.found, Amount.text,
      String.toList_ofList, Amount.read?_toChars, netSum_entries]

/-- A transaction has no finding if it balances, and one that tells its excess if not. -/
theorem groupFinding?_cases (entries : List Entry) :
    (groupFinding? entries = none ∧ netSum entries = 0)
      ∨ ∃ f, groupFinding? entries = some f ∧ f.foundAmount? = some (netSum entries) := by
  cases entries with
  | nil => exact .inl ⟨rfl, rfl⟩
  | cons first others =>
    by_cases hzero : netSum (first :: others) = 0
    · exact .inl ⟨if_pos hzero, hzero⟩
    · refine .inr ⟨_, if_neg hzero, ?_⟩
      rw [Finding.foundAmount?, Finding.found, Amount.text, String.toList_ofList,
        Amount.read?_toChars]

/-- What is found in transactions adds up to what all of them are in excess: those without a finding are
in excess by nothing. -/
theorem exists_foundAmounts (groups : List (List Entry)) :
    ∃ amounts : List Rat,
      (groups.filterMap groupFinding?).map Finding.foundAmount? = amounts.map some
      ∧ sumOf id amounts = sumOf netSum groups := by
  induction groups with
  | nil => exact ⟨[], rfl, rfl⟩
  | cons entries groups ih =>
    obtain ⟨amounts, hamounts, hsum⟩ := ih
    rcases groupFinding?_cases entries with ⟨hnone, hzero⟩ | ⟨f, hsome, hfound⟩
    · refine ⟨amounts, ?_, ?_⟩
      · rw [List.filterMap_cons_none hnone, hamounts]
      · rw [sumOf_cons, hzero, zero_add, hsum]
    · refine ⟨netSum entries :: amounts, ?_, ?_⟩
      · rw [List.filterMap_cons_some hsome, List.map_cons, List.map_cons, hfound, hamounts]
      · rw [sumOf_cons, sumOf_cons, hsum, id_eq]

/-- Where no group is found wrong, each of them comes to nothing. -/
theorem netSum_eq_zero_of_findings {l : Ledger} (h : transactionFindings l = [])
    {entries : List Entry} (hmem : entries ∈ l.groups.map (·.2)) : netSum entries = 0 := by
  rw [transactionFindings_eq] at h
  have hnone := List.filterMap_eq_nil_iff.1 h entries hmem
  rcases groupFinding?_cases entries with ⟨-, hzero⟩ | ⟨f, hsome, -⟩
  · exact hzero
  · rw [hsome] at hnone
    cases hnone

/-- **The excess of a ledger is that of its transactions.** Credits and debits differ by the sum of what
they differ by in each transaction. So they do not differ if they do in no transaction; and if they do, the
amount that is reported for all of them is the sum of those that are reported for transactions, as these
are read back from their texts. -/
theorem grossSum_sub_eq_sum (l : Ledger) :
    grossSum l.credits - grossSum l.debits = sumOf netSum (l.groups.map (·.2))
      ∧ (transactionFindings l = [] → totalFindings l = [])
      ∧ ∀ f ∈ totalFindings l, ∃ amounts : List Rat,
        (transactionFindings l).map Finding.foundAmount? = amounts.map some
          ∧ f.foundAmount? = some (sumOf id amounts) := by
  refine ⟨?_, ?_, ?_⟩
  · rw [netSum_groups, netSum_entries]
  · intro hnone
    rw [totalFindings_eq_nil_iff, ← netSum_groups]
    exact sumOf_eq_zero fun entries hmem => netSum_eq_zero_of_findings hnone hmem
  · intro f hf
    obtain ⟨amounts, hamounts, hsum⟩ := exists_foundAmounts (l.groups.map (·.2))
    refine ⟨amounts, ?_, ?_⟩
    · rw [transactionFindings_eq, hamounts]
    · rw [foundAmount?_of_mem_totalFindings hf, hsum, netSum_groups]

/-- An entry of a ledger that was not read from a source. -/
def looseEntry (id : Int) (parent : Option Int) (direction : Direction) (amount : Rat) : Entry :=
  { id, date := sampleDay, description := "", direction, account := cash, amount := ⟨amount, brl⟩,
    span := .point 0, parent }

/-- Three entries: the second names the first as its parent, although that is no transaction. -/
def looseLedger : Ledger :=
  { entries := [looseEntry 7 none .credit 3, looseEntry 1 (some 7) .debit 1,
      looseEntry 8 none .credit (1 / 3)] }

/-- Two groups that come to nothing neither alone nor together. -/
theorem grossSum_sub_eq_sum_loose :
    looseLedger.groups.map (·.1) = [7, 8]
    ∧ totalFindings looseLedger = [.totals (7 / 3) [brl]]
    ∧ ∃ amounts : List Rat,
      (transactionFindings looseLedger).map Finding.foundAmount? = amounts.map some
        ∧ sumOf id amounts = 7 / 3 := by
  have htotal : totalFindings looseLedger = [.totals (7 / 3) [brl]] := by decide +kernel
  have hmem : Finding.totals (7 / 3) [brl] ∈ totalFindings looseLedger := by
    rw [htotal]
    exact List.mem_singleton_self _
  obtain ⟨amounts, hamounts, hfound⟩ := (grossSum_sub_eq_sum looseLedger).2.2 _ hmem
  have hread : Finding.foundAmount? (.totals (7 / 3) [brl]) = some (7 / 3) := by
    rw [Finding.foundAmount?, Finding.found, Amount.text, String.toList_ofList, Amount.read?_toChars]
  refine ⟨by decide +kernel, htotal, amounts, hamounts, ?_⟩
  exact Option.some.inj (hfound.symm.trans hread)

end Check

end Daybook
