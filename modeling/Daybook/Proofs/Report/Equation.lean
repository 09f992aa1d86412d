import Daybook.Proofs.Ledger.Transactions
import Daybook.Proofs.Report.BalanceSheet
import Daybook.Proofs.Validation.Excess

/-!
The accounting equation.

What an entry adds to the natural balance of its account is its amount with the sign of a credit, or the
opposite if the account grows with debits. So assets and expenses together differ from the other kinds by
the excess of the credits among the entries up to the date (`sides_of`). In a ledger that was built from
statements, a date does not part the legs of a transaction; so if no transaction is in excess, neither are
the entries up to any date (`netSum_included`).
-/

namespace Daybook

/-- An entry adds to its account its amount with the sign of a debit, and a credit takes it away. -/
theorem Entry.effect_eq_mul (e : Entry) : e.effect.amount = e.account.sign .debit * -e.signed := by
  have heffect : e.effect.amount = e.amount.amount * (e.account.sign e.direction : Rat) := rfl
  rw [heffect, Entry.signed, Entry.isCredit, Account.sign, Account.sign, mul_comm]
  cases e.direction with
  | credit =>
    rw [AccountKind.sign_credit, decide_eq_true rfl, if_pos rfl, Int.cast_neg, neg_mul, mul_neg]
  | debit => rw [if_neg (by decide), neg_neg]

/-- So it adds what it is with its sign, or the opposite. -/
theorem Entry.effect_eq_signed (e : Entry) :
    e.effect.amount
      = if e.account.kind = .assets ∨ e.account.kind = .expenses then -e.signed else e.signed := by
  rw [e.effect_eq_mul, Account.sign]
  cases e.account.kind <;> simp [AccountKind.sign]

namespace BalanceSheet

open Check

/-- Whether assets and expenses together are liabilities, income and equity together. -/
def Balances (s : BalanceSheet) : Prop :=
  (s.totalsOf .assets).balance + (s.totalsOf .expenses).balance
    = (s.totalsOf .liabilities).balance + (s.totalsOf .income).balance + (s.totalsOf .equity).balance

/-- Whether the debits of all kinds are the credits of all kinds. -/
def SidesAgree (s : BalanceSheet) : Prop :=
  (Totals.sum (s.kinds.map (·.totals))).debits = (Totals.sum (s.kinds.map (·.totals))).credits

/-- The two sides of the equation differ by the excess of the credits. -/
theorem sides_of (l : Ledger) (asOf : Option Date) :
    ((of l asOf).totalsOf .assets).balance + ((of l asOf).totalsOf .expenses).balance
        + netSum (included l asOf)
      = ((of l asOf).totalsOf .liabilities).balance + ((of l asOf).totalsOf .income).balance
        + ((of l asOf).totalsOf .equity).balance := by
  have hkind := column_balance.totalsOf_of l asOf
  rw [hkind, hkind, hkind, hkind, hkind, netSum_eq_sumOf]
  simp only [sumOf_filter]
  rw [← sumOf_add, ← sumOf_add, ← sumOf_add, ← sumOf_add]
  refine sumOf_congr fun e _ => ?_
  rw [e.effect_eq_signed]
  cases e.account.kind <;> simp

/-- The equation of the sheet holds if what is included comes to nothing. -/
theorem balances_of_iff (l : Ledger) (asOf : Option Date) :
    (of l asOf).Balances ↔ netSum (included l asOf) = 0 := by
  rw [Balances, ← sides_of, left_eq_add]

/-- The sides agree just then too. -/
theorem sidesAgree_of_iff (l : Ledger) (asOf : Option Date) :
    (of l asOf).SidesAgree ↔ netSum (included l asOf) = 0 := by
  rw [SidesAgree, column_debits.sum_kinds, column_credits.sum_kinds, netSum_eq_sub, sub_eq_zero,
    grossSum_eq_sumOf, grossSum_eq_sumOf, sumOf_filter, sumOf_filter, eq_comm]

/-- What the entries of one date count up to a date: all of it or nothing. -/
theorem sumOf_included_eq_zero {entries : List Entry} (hne : entries ≠ [])
    (hdates : ∀ e ∈ entries, ∀ other ∈ entries, e.date = other.date) (hzero : netSum entries = 0)
    (asOf : Option Date) :
    sumOf (fun e => if includes asOf e.date = true then e.signed else 0) entries = 0 := by
  obtain ⟨first, hfirst⟩ := List.exists_mem_of_ne_nil entries hne
  by_cases hdate : includes asOf first.date = true
  · have hall : ∀ e ∈ entries, (if includes asOf e.date = true then e.signed else 0) = e.signed := by
      intro e he
      rw [hdates e he first hfirst, if_pos hdate]
    rw [sumOf_congr hall]
    exact hzero
  · refine sumOf_eq_zero fun e he => ?_
    rw [hdates e he first hfirst, if_neg hdate]

/-- **A date does not part a transaction.** Where entries that are grouped together have one date and no
group is in excess, the entries up to any date are not. -/
theorem netSum_included {l : Ledger} (hdates : l.SharesDates) (h : transactionFindings l = [])
    (asOf : Option Date) : netSum (included l asOf) = 0 := by
  rw [netSum_eq_sumOf, included, sumOf_filter, ← Tally.sumOf_groups Entry.groupKey]
  refine sumOf_eq_zero fun group hgroup => ?_
  have hitems : group.2 = l.entries.filter fun e => e.groupKey = group.1 :=
    Tally.eq_filter_of_mem_groups hgroup
  have hshared : ∀ e ∈ group.2, ∀ other ∈ group.2, e.date = other.date := by
    intro e he other hother
    rw [hitems, List.mem_filter] at he hother
    have hkey : e.groupKey = other.groupKey :=
      (of_decide_eq_true he.2).trans (of_decide_eq_true hother.2).symm
    exact hdates e he.1 other hother.1 hkey
  have hzero : netSum group.2 = 0 :=
    netSum_eq_zero_of_findings h (List.mem_map.2 ⟨group, hgroup, rfl⟩)
  exact sumOf_included_eq_zero (Tally.ne_nil_of_mem_groups hgroup) hshared hzero asOf

/-- **The accounting equation.** If no transaction of a ledger built from statements is in excess, then up
to every date assets and expenses equal liabilities, income and equity, and debits equal credits. For any
ledger as a whole, the equation holds if and only if the check of the totals finds nothing. -/
theorem balances_build :
    (∀ (ps : List (Spanned Statement)) (asOf : Option Date),
      transactionFindings (Ledger.build ps) = [] →
        (of (Ledger.build ps) asOf).Balances ∧ (of (Ledger.build ps) asOf).SidesAgree)
    ∧ ∀ l : Ledger, (of l none).Balances ↔ totalFindings l = [] := by
  refine ⟨?_, ?_⟩
  · intro ps asOf h
    have hzero := netSum_included (Ledger.sharesDates_build ps) h asOf
    exact ⟨(balances_of_iff _ asOf).2 hzero, (sidesAgree_of_iff _ asOf).2 hzero⟩
  · intro l
    have hall : included l none = l.entries := List.filter_eq_self.2 fun _ _ => rfl
    rw [balances_of_iff, totalFindings_eq_nil_iff, hall]

open Parsed (sampleDay cash brl)

/-- The day before the sample day. -/
def dayBefore : Date := { sampleDay with day := 1, day_bounds := by decide }

/-- The account `expenses:food`. -/
def food : Account := ⟨.expenses, ["food"], by decide, by decide, by decide⟩

/-- Food is bought for cash. -/
def purchase (date : Date) (amount : Rat) : Spanned Statement :=
  ⟨.transaction date "" [⟨.credit, ⟨amount, brl⟩, cash⟩, ⟨.debit, ⟨amount, brl⟩, food⟩]
    (List.cons_ne_nil _ _), .point 0⟩

/-- Two purchases, of which the cut-off includes one. -/
theorem balances_build_purchases :
    transactionFindings (Ledger.build [purchase sampleDay 5, purchase dayBefore 30]) = []
    ∧ ((of (Ledger.build [purchase sampleDay 5, purchase dayBefore 30])
        (some dayBefore)).totalsOf .expenses).balance = 30
    ∧ (of (Ledger.build [purchase sampleDay 5, purchase dayBefore 30]) (some dayBefore)).Balances
    ∧ (of (Ledger.build [purchase sampleDay 5, purchase dayBefore 30]) (some dayBefore)).SidesAgree := by
  have hnone : transactionFindings (Ledger.build [purchase sampleDay 5, purchase dayBefore 30]) = [] := by
    decide +kernel
  refine ⟨hnone, ?_, balances_build.1 _ _ hnone⟩
  rw [column_balance.totalsOf_of]
  decide +kernel

end BalanceSheet

end Daybook
