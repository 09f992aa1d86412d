import Daybook.Proofs.Account.Order
import Daybook.Proofs.Data.Grouping
import Daybook.Proofs.Ledger.Timeline
import Daybook.Proofs.Report.Equation
import Daybook.Proofs.Source.Extent
import Daybook.Proofs.Validation.Assertions
import Daybook.Report.Table

/-!
Reports do not depend on the order of entries.

All that is reported is made of sums, of tags that are listed each once and in order, of spans that
cover others, and of lists by account or by date. None of these depends on how entries and openings are
listed: neither do timelines (`Timeline.buildAll_perm`), balance sheets (`BalanceSheet.of_reordered`), and what
the checks find (`Ledger.Reordered.reports`). Only the order in which transactions are found wrong is that in
which they first appear.
-/

namespace Daybook

/-- The ledgers have the same entries and the same openings, in whatever order, and assert the same balances. -/
structure Ledger.Reordered (l m : Ledger) : Prop where
  entries : l.entries.Perm m.entries
  openings : l.openings.Perm m.openings
  assertions : l.assertions = m.assertions

/-! ## Timelines -/

namespace Timeline

variable {entries others : List Entry}

/-- The same is changed on the same dates. -/
theorem perm_changes (h : entries.Perm others) : (changes entries).Perm (changes others) := by
  have hnodup (es : List Entry) : (Tally.keys (changes es)).Nodup :=
    Tally.nodup_keys_collect (t := []) List.nodup_nil es
  apply Tally.perm_of_get?_eq (hnodup entries) (hnodup others)
  intro date
  rw [changes, changes, Tally.get?_collect, Tally.get?_collect]
  apply (h.filter _).foldl_eq'
  intro e _ other _ sum
  rw [Option.getD_some, Option.getD_some, add_right_comm]

/-- Changes that are put in order come out the same, however the entries were listed. -/
theorem orderedChanges_perm (h : entries.Perm others) :
    orderedChanges entries = orderedChanges others := by
  have hsorts : Sorts fun a b : Date × Rat => decide (a.1 ≤ b.1) :=
    .of_key fun a : Date × Rat => a.1.key
  have hnodup : ((changes entries).map (·.1)).Nodup :=
    Tally.nodup_keys_collect (t := []) List.nodup_nil entries
  apply hsorts.mergeSort_congr (perm_changes h)
  -- There is one change a date, so changes that precede each other are one.
  intro a ha b hb hab hba
  apply List.inj_on_of_nodup_map hnodup ha hb
  exact Date.key_injective (Nat.le_antisymm (of_decide_eq_true hab) (of_decide_eq_true hba))

theorem of_eq (account : Account) (entries : List Entry) :
    Timeline.of account entries
      = { account
          points := runningSums 0 (orderedChanges (entries.filter (·.account = account)))
          currencies := Currency.sorted
            ((entries.filter (·.account = account)).map (·.amount.currency)) } := rfl

/-- **A timeline does not depend on the order of entries.** -/
theorem of_perm (account : Account) (h : entries.Perm others) :
    Timeline.of account entries = Timeline.of account others := by
  have hown := h.filter fun e => decide (e.account = account)
  rw [of_eq, of_eq, orderedChanges_perm hown,
    Currency.sorted_congr (hown.map (·.amount.currency))]

/-- **Nor do the timelines of several accounts**, whichever accounts are wanted. -/
theorem buildAll_perm (h : entries.Perm others) (wanted : Option (List Account)) :
    buildAll entries wanted = buildAll others wanted := by
  have hrelevant : (relevant entries wanted).Perm (relevant others wanted) := by
    cases wanted with
    | none => exact h
    | some accounts => exact h.filter _
  have hkeys := Tally.perm_keys_groups Entry.account hrelevant
  have haccounts : Account.sorted
      (wanted.getD (Tally.keys (Tally.groups Entry.account (relevant entries wanted))))
        = Account.sorted
          (wanted.getD (Tally.keys (Tally.groups Entry.account (relevant others wanted)))) := by
    cases wanted with
    | none => exact Account.sorted_congr hkeys
    | some accounts => rfl
  rw [buildAll_eq, buildAll_eq, haccounts]
  apply List.map_congr_left
  intro account _
  exact of_perm account (hrelevant.filter _)

end Timeline

/-! ## Balance sheets -/

namespace BalanceSheet

/-- The openings up to a date. -/
def opened (l : Ledger) (asOf : Option Date) : List AccountOpening :=
  l.openings.filter fun o => includes asOf o.date

/-- Openings add their currencies to an account, and nothing else. -/
theorem getD_foldl_addOpening (os : List AccountOpening) (a : Option Accumulated) :
    (os.foldl (fun a o => some (addOpening a o)) a).getD {}
      = { a.getD {} with currencies := (a.getD {}).currencies ++ os.map (·.currency) } := by
  induction os generalizing a with
  | nil => rw [List.foldl_nil, List.map_nil, List.append_nil]
  | cons o os ih =>
    rw [List.foldl_cons, ih, Option.getD_some, addOpening, List.append_assoc, List.map_cons,
      List.singleton_append]

/-- Entries add their currencies to an account, and their amounts to its totals. -/
theorem getD_foldl_addEntry (es : List Entry) (a : Option Accumulated) :
    (es.foldl (fun a e => some (addEntry a e)) a).getD {}
      = { currencies := (a.getD {}).currencies ++ es.map (·.amount.currency)
          totals := es.foldl Totals.add (a.getD {}).totals } := by
  induction es generalizing a with
  | nil => rw [List.foldl_nil, List.map_nil, List.append_nil, List.foldl_nil]
  | cons e es ih =>
    rw [List.foldl_cons, ih, Option.getD_some, addEntry, List.append_assoc, List.map_cons,
      List.singleton_append, List.foldl_cons]

/-- **What is accumulated for an account**: the currencies of its openings and of its entries, and the totals
of its entries. -/
theorem getD_get?_accumulate (l : Ledger) (asOf : Option Date) (account : Account) :
    (Tally.get? (accumulate l asOf) account).getD {}
      = { currencies := ((opened l asOf).filter (·.account = account)).map (·.currency)
            ++ ((included l asOf).filter (·.account = account)).map (·.amount.currency)
          totals := ((included l asOf).filter (·.account = account)).foldl Totals.add .zero } := by
  unfold accumulate
  rw [Tally.get?_collect, getD_foldl_addEntry, Tally.get?_collect, getD_foldl_addOpening]
  rfl

/-- Totals do not depend on the order in which entries are added. -/
theorem foldl_add_perm {entries others : List Entry} (h : entries.Perm others) (t : Totals) :
    entries.foldl Totals.add t = others.foldl Totals.add t := by
  apply h.foldl_eq'
  intro e _ other _ t
  unfold Totals.add
  cases e.isCredit <;> cases other.isCredit <;> simp [add_right_comm]

theorem accounts_of (l : Ledger) (asOf : Option Date) :
    (of l asOf).accounts
      = (Account.sort (accumulate l asOf).keys).map fun account =>
          rowOf (account, ((accumulate l asOf).get? account).getD {}) := rfl

/-- A sheet is determined by its rows: the totals of kinds are computed from them. -/
theorem of_eq_mk (l : Ledger) (asOf : Option Date) :
    of l asOf = ⟨asOf, (of l asOf).accounts, AccountKind.all.filterMap (kindRow? (of l asOf).accounts)⟩ :=
  rfl

variable {l m : Ledger}

/-- **A balance sheet does not depend on the order of entries and openings.** -/
theorem of_reordered (h : l.Reordered m) (asOf : Option Date) : of l asOf = of m asOf := by
  have hopened : (opened l asOf).Perm (opened m asOf) := h.openings.filter _
  have hincluded : (included l asOf).Perm (included m asOf) := h.entries.filter _
  have hkeys : (accumulate l asOf).keys.Perm (accumulate m asOf).keys := by
    unfold accumulate
    apply Tally.perm_keys_collect _ _ _ hincluded
    · exact Tally.nodup_keys_collect (t := []) List.nodup_nil _
    · exact Tally.nodup_keys_collect (t := []) List.nodup_nil _
    · exact Tally.perm_keys_collect (t := []) (u := []) List.nodup_nil List.nodup_nil
        (List.Perm.refl _) hopened
  have hrow : ∀ account, rowOf (account, ((accumulate l asOf).get? account).getD {})
      = rowOf (account, ((accumulate m asOf).get? account).getD {}) := by
    intro account
    have hown := hincluded.filter fun e => decide (e.account = account)
    have hcurrencies := ((hopened.filter fun o => decide (o.account = account)).map
      (·.currency)).append (hown.map (·.amount.currency))
    rw [getD_get?_accumulate, getD_get?_accumulate, rowOf, rowOf, Currency.sorted_congr hcurrencies,
      foldl_add_perm hown]
  have haccounts : (of l asOf).accounts = (of m asOf).accounts := by
    rw [accounts_of, accounts_of, Account.sort_congr hkeys]
    exact List.map_congr_left fun account _ => hrow account
  rw [of_eq_mk, haccounts]
  rfl

end BalanceSheet

/-! ## Checks -/

namespace Check

variable {entries others : List Entry} {l m : Ledger}

/-- The currencies of some entries do not depend on their order. -/
theorem currenciesOf_perm (h : entries.Perm others) : currenciesOf entries = currenciesOf others :=
  Currency.sorted_congr (h.map _)

/-- What is found wrong with the totals stays the same. -/
theorem totalFindings_reordered (h : l.Reordered m) : totalFindings l = totalFindings m := by
  have hcredits : grossSum l.credits = grossSum m.credits := sumOf_perm (h.entries.filter _)
  have hdebits : grossSum l.debits = grossSum m.debits := sumOf_perm (h.entries.filter _)
  rw [totalFindings_eq, totalFindings_eq, hcredits, hdebits, currenciesOf_perm h.entries]

/-- What is found wrong with a transaction does not depend on the order of its legs. -/
theorem groupFinding?_perm (h : entries.Perm others) : groupFinding? entries = groupFinding? others := by
  have hnet : netSum entries = netSum others := sumOf_perm h
  have hcurrencies := currenciesOf_perm h
  -- The span is taken from the first leg on, which may be another one in the other order.
  cases entries with
  | nil => rw [List.nil_perm.1 h]
  | cons first more =>
    cases others with
    | nil => exact absurd h.symm (List.not_perm_nil_cons _ _)
    | cons other rest =>
      have hspan : Span.covering first.span (more.map (·.span))
          = Span.covering other.span (rest.map (·.span)) := Span.covering_congr (h.map Entry.span)
      simp only [groupFinding?, hnet, hcurrencies, hspan]

/-- What is found wrong with groups stays the same, but may come in another order. -/
theorem transactionFindings_reordered (h : l.Reordered m) :
    (transactionFindings l).Perm (transactionFindings m) := by
  apply Tally.perm_filterMap_groups _ h.entries
  intro key items others hitems
  exact groupFinding?_perm hitems

/-- What is found wrong with asserted balances stays the same, in the same order. -/
theorem balanceFindings_reordered (h : l.Reordered m) : balanceFindings l = balanceFindings m := by
  have htimelines : assertedTimelines l = assertedTimelines m := by
    rw [assertedTimelines, assertedTimelines, h.assertions]
    exact Timeline.buildAll_perm h.entries _
  rw [balanceFindings_eq, balanceFindings_eq, h.assertions]
  unfold balanceFinding?
  rw [htimelines]

end Check

namespace Ledger.Reordered

open Parsed (sampleDay cash brl)
open BalanceSheet (purchase dayBefore food)

variable {l m : Ledger}

/-- **Reports do not depend on the order of entries and openings.** -/
theorem reports (h : l.Reordered m) :
    Check.totalFindings l = Check.totalFindings m
    ∧ Check.balanceFindings l = Check.balanceFindings m
    ∧ (∀ account, Timeline.of account l.entries = Timeline.of account m.entries)
    ∧ (∀ wanted, Timeline.buildAll l.entries wanted = Timeline.buildAll m.entries wanted)
    ∧ (∀ asOf, BalanceSheet.of l asOf = BalanceSheet.of m asOf
        ∧ (BalanceSheet.of l asOf).render = (BalanceSheet.of m asOf).render)
    ∧ (Check.transactionFindings l).Perm (Check.transactionFindings m) := by
  refine ⟨Check.totalFindings_reordered h, Check.balanceFindings_reordered h, ?_, ?_, ?_,
    Check.transactionFindings_reordered h⟩
  · intro account
    exact Timeline.of_perm account h.entries
  · exact Timeline.buildAll_perm h.entries
  · intro asOf
    have hsheet := BalanceSheet.of_reordered h asOf
    exact ⟨hsheet, congrArg BalanceSheet.render hsheet⟩

/-- The ledger with entries and openings listed from the last one to the first one. -/
def backwards (l : Ledger) : Ledger :=
  { l with entries := l.entries.reverse, openings := l.openings.reverse }

/-- Listing the entries backwards is reordering them. -/
theorem of_backwards (l : Ledger) : l.Reordered (backwards l) :=
  ⟨(List.reverse_perm _).symm, (List.reverse_perm _).symm, rfl⟩

/-- Food is bought on two days, the later one first. -/
def marketLedger : Ledger :=
  { Ledger.build [purchase sampleDay 5, purchase dayBefore 30] with
    openings := [⟨7, cash, sampleDay, brl, .point 0⟩, ⟨8, food, dayBefore, brl, .point 0⟩]
    assertions := [⟨9, cash, sampleDay, ⟨-30, brl⟩, .point 0⟩] }

/-- The market ledger is not the same backwards, but its reports are. -/
theorem reports_backwards :
    (marketLedger.entries ≠ (backwards marketLedger).entries
      ∧ marketLedger.Reordered (backwards marketLedger))
    ∧ Check.totalFindings marketLedger = Check.totalFindings (backwards marketLedger)
    ∧ Check.balanceFindings marketLedger = Check.balanceFindings (backwards marketLedger)
    ∧ (∀ account, Timeline.of account marketLedger.entries
        = Timeline.of account (backwards marketLedger).entries)
    ∧ (∀ wanted, Timeline.buildAll marketLedger.entries wanted
        = Timeline.buildAll (backwards marketLedger).entries wanted)
    ∧ (∀ asOf, BalanceSheet.of marketLedger asOf = BalanceSheet.of (backwards marketLedger) asOf
        ∧ (BalanceSheet.of marketLedger asOf).render
          = (BalanceSheet.of (backwards marketLedger) asOf).render)
    ∧ (Check.transactionFindings marketLedger).Perm
        (Check.transactionFindings (backwards marketLedger)) :=
  ⟨⟨by decide +kernel, of_backwards marketLedger⟩, reports (of_backwards marketLedger)⟩

end Ledger.Reordered

end Daybook
