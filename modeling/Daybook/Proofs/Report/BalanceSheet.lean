import Daybook.Proofs.Data.Tally
import Daybook.Report.BalanceSheet

/-!
What the rows of a balance sheet add up to.

A column of a balance sheet starts at nothing and grows with every entry by an amount that depends on the
entry alone (`Column`); debits, credits and balances are such columns. Whatever accounts are looked at, a
column of their rows adds up to the amounts of the entries that belong to them (`Column.sumOf_rows`), and
an account and a kind are two ways of looking at accounts (`balanceOf_of`, `Column.totalsOf_of`).
-/

namespace Daybook

/-- The sum of what the members with a key count is what the first of them counts, if there are no two. -/
theorem sumOf_filter_key {α κ : Type} [DecidableEq κ] {key : α → κ} {f : α → Rat} {xs : List α}
    (h : (xs.map key).Nodup) (k : κ) :
    sumOf f (xs.filter fun x => decide (key x = k))
      = ((xs.find? fun x => decide (key x = k)).map f).getD 0 := by
  induction xs with
  | nil => rfl
  | cons x xs ih =>
    obtain ⟨hfirst, hnodup⟩ := List.nodup_cons.1 h
    by_cases hx : key x = k
    · have hother : ∀ y ∈ xs, ¬ decide (key y = k) = true := by
        intro y hy hyk
        exact hfirst (List.mem_map.2 ⟨y, hy, (of_decide_eq_true hyk).trans hx.symm⟩)
      rw [List.filter_cons_of_pos (by simpa using hx), List.filter_eq_nil_iff.2 hother,
        List.find?_cons_of_pos (by simpa using hx), sumOf_cons, sumOf_nil, add_zero]
      rfl
    · rw [List.filter_cons_of_neg (by simpa using hx), List.find?_cons_of_neg (by simpa using hx),
        ih hnodup]

namespace BalanceSheet

/-- The entries up to a date. -/
def included (l : Ledger) (asOf : Option Date) : List Entry :=
  l.entries.filter fun e => includes asOf e.date

/-- The row of an account with what was accumulated for it. -/
def rowOf (a : Account × Accumulated) : AccountRow :=
  { account := a.1, currencies := Currency.sorted a.2.currencies, totals := a.2.totals }

/-- Each account is accumulated once. -/
theorem nodup_keys_accumulate (l : Ledger) (asOf : Option Date) :
    (accumulate l asOf).keys.Nodup :=
  Tally.nodup_keys_collect (Tally.nodup_keys_collect (t := []) List.Pairwise.nil _) _

/-- The rows are those of the accounts that something was accumulated for. -/
theorem perm_accounts_of (l : Ledger) (asOf : Option Date) :
    (of l asOf).accounts.Perm ((accumulate l asOf).map rowOf) := by
  have hrows : (of l asOf).accounts
      = (Account.sort (accumulate l asOf).keys).map fun account =>
          rowOf (account, ((accumulate l asOf).get? account).getD {}) := rfl
  have hrow : ∀ a ∈ accumulate l asOf,
      rowOf (a.1, ((accumulate l asOf).get? a.1).getD {}) = rowOf a := by
    intro a ha
    rw [Tally.get?_eq_some (nodup_keys_accumulate l asOf) ha, Option.getD_some]
  rw [hrows, Account.sort]
  refine ((List.mergeSort_perm _ _).map _).trans ?_
  rw [Tally.keys, List.map_map]
  exact List.Perm.of_eq (List.map_congr_left hrow)

/-- Each account has one row. -/
theorem nodup_accounts_of (l : Ledger) (asOf : Option Date) :
    ((of l asOf).accounts.map (·.account)).Nodup := by
  have hperm := (perm_accounts_of l asOf).map (·.account)
  rw [List.map_map] at hperm
  exact hperm.nodup_iff.2 (nodup_keys_accumulate l asOf)

/-! ## Columns -/

/-- A column of a balance sheet, in which each entry counts an amount of its own. -/
structure Column (part : Totals → Rat) (amount : Entry → Rat) : Prop where
  zero : part .zero = 0
  add : ∀ totals e, part (totals.add e) = part totals + amount e
  sum : ∀ totals, part (Totals.sum totals) = sumOf part totals

/-- Debits are a column: an entry counts for its amount if it is a debit. -/
theorem column_debits :
    Column (·.debits) fun e => if (!e.isCredit) = true then e.amount.amount else 0 where
  zero := rfl
  add totals e := by
    rw [Totals.add]
    by_cases h : e.isCredit = true
    · simp only [h, if_true, Bool.not_true, Bool.false_eq_true, if_false, add_zero]
    · simp only [h, Bool.false_eq_true, if_false, Bool.not_false, if_true]
  sum _ := rfl

/-- Credits are a column: an entry counts for its amount if it is a credit. -/
theorem column_credits : Column (·.credits) fun e => if e.isCredit then e.amount.amount else 0 where
  zero := rfl
  add totals e := by
    rw [Totals.add]
    by_cases h : e.isCredit = true
    · simp only [h, if_true]
    · simp only [h, Bool.false_eq_true, if_false, add_zero]
  sum _ := rfl

/-- The balance is a column: an entry counts for its effect. -/
theorem column_balance : Column (·.balance) (·.effect.amount) where
  zero := rfl
  add _ _ := rfl
  sum _ := rfl

namespace Column

variable {part : Totals → Rat} {amount : Entry → Rat} {p : Account → Bool}

/-- What an account has in a column, if it is looked at. -/
def share (part : Totals → Rat) (p : Account → Bool) (a : Account × Accumulated) : Rat :=
  if p a.1 = true then part a.2.totals else 0

/-- An opening counts in no column. -/
theorem share_addOpening (h : Column part amount) (o : AccountOpening) (a : Option Accumulated) :
    share part p (o.account, addOpening a o) = a.elim 0 fun a => share part p (o.account, a) := by
  cases a with
  | none =>
    have hnothing : part (addOpening none o).totals = 0 := h.zero
    rw [share, hnothing, ite_self, Option.elim_none]
  | some a => rfl

/-- An entry raises the share of its account, and no other share. -/
theorem share_addEntry (h : Column part amount) (e : Entry) (a : Option Accumulated) :
    share part p (e.account, addEntry a e)
      = (a.elim 0 fun a => share part p (e.account, a))
        + if p e.account = true then amount e else 0 := by
  have hentry : part (addEntry a e).totals = part (a.getD {}).totals + amount e := h.add _ e
  rw [share, hentry]
  by_cases hp : p e.account = true
  · rw [if_pos hp, if_pos hp]
    cases a with
    | none =>
      have hnothing : part ({} : Accumulated).totals = 0 := h.zero
      rw [Option.getD_none, hnothing, Option.elim_none]
    | some a => rw [Option.getD_some, Option.elim_some, share, if_pos hp]
  · rw [if_neg hp, if_neg hp, add_zero]
    cases a with
    | none => rfl
    | some a => rw [Option.elim_some, share, if_neg hp]

/-- **A column of some accounts adds up to the amounts of their entries.** -/
theorem sumOf_rows (h : Column part amount) (l : Ledger) (asOf : Option Date) (p : Account → Bool) :
    sumOf (fun row => part row.totals) ((of l asOf).accounts.filter fun row => p row.account)
      = sumOf amount ((included l asOf).filter fun e => p e.account) := by
  have hopenings : ∀ openings : List AccountOpening,
      sumOf (share part p) (Tally.collect AccountOpening.account addOpening [] openings) = 0 := by
    intro openings
    rw [Tally.sumOf_collect (fun _ => 0), sumOf_nil, zero_add, sumOf_eq_zero fun _ _ => rfl]
    intro o a
    rw [h.share_addOpening, add_zero]
  have hrows : sumOf (share part p) (accumulate l asOf)
      = sumOf (fun e => if p e.account = true then amount e else 0) (included l asOf) := by
    rw [accumulate, Tally.sumOf_collect _ _ _ h.share_addEntry, hopenings, zero_add]
    rfl
  rw [sumOf_filter, sumOf_filter, sumOf_perm (perm_accounts_of l asOf), sumOf_map]
  exact hrows

end Column

/-! ## Accounts -/

/-- The balance of an account; an account without a row has none. -/
def balanceOf (s : BalanceSheet) (a : Account) : Rat :=
  ((s.accountRow? a).map (·.totals.balance)).getD 0

/-- **The balance of an account** is the sum of what its entries up to the date add. -/
theorem balanceOf_of (l : Ledger) (asOf : Option Date) (a : Account) :
    (of l asOf).balanceOf a
      = sumOf (·.effect.amount) ((included l asOf).filter fun e => decide (e.account = a)) := by
  have hrow := sumOf_filter_key (f := fun row : AccountRow => row.totals.balance)
    (nodup_accounts_of l asOf) a
  rw [balanceOf, accountRow?, ← hrow]
  exact column_balance.sumOf_rows l asOf fun account => decide (account = a)

/-! ## Kinds -/

/-- The totals of a kind; a kind without a row has none. -/
def totalsOf (s : BalanceSheet) (kind : AccountKind) : Totals :=
  ((s.kindTotal? kind).map (·.totals)).getD .zero

theorem kind_of_kindRow? {rows : List AccountRow} {kind : AccountKind} {row : KindRow}
    (h : kindRow? rows kind = some row) : row.kind = kind := by
  rw [kindRow?] at h
  split at h
  · cases h
  · rw [← Option.some.inj h]

/-- The row of a kind is the one that is found for it. -/
theorem find?_kindRow? (rows : List AccountRow) (kinds : List AccountKind) {kind : AccountKind}
    (h : kind ∈ kinds) :
    (kinds.filterMap (kindRow? rows)).find? (·.kind = kind) = kindRow? rows kind := by
  induction kinds with
  | nil => cases h
  | cons first kinds ih =>
    by_cases hfirst : first = kind
    · subst hfirst
      cases hrow : kindRow? rows first with
      | some row =>
        have hkind := kind_of_kindRow? hrow
        rw [List.filterMap_cons_some hrow, List.find?_cons_of_pos (by simpa using hkind)]
      | none =>
        -- None of the rows of the other kinds has this kind.
        rw [List.filterMap_cons_none hrow, List.find?_eq_none]
        intro row hmem hkind
        obtain ⟨other, -, hother⟩ := List.mem_filterMap.1 hmem
        rw [← kind_of_kindRow? hother, of_decide_eq_true hkind, hrow] at hother
        cases hother
    · have hrest := ih ((List.mem_cons.1 h).resolve_left (Ne.symm hfirst))
      cases hrow : kindRow? rows first with
      | some row =>
        have hne : row.kind ≠ kind := by
          rw [kind_of_kindRow? hrow]
          exact hfirst
        rw [List.filterMap_cons_some hrow, List.find?_cons_of_neg (by simpa using hne), hrest]
      | none => rw [List.filterMap_cons_none hrow, hrest]

/-- The totals of a kind are those of its row, or zero if it has none. -/
theorem totalsOf_of (l : Ledger) (asOf : Option Date) (kind : AccountKind) :
    (of l asOf).totalsOf kind
      = ((kindRow? (of l asOf).accounts kind).map (·.totals)).getD .zero := by
  rw [totalsOf, kindTotal?]
  exact congrArg (fun row : Option KindRow => (row.map (·.totals)).getD .zero)
    (find?_kindRow? _ _ (AccountKind.mem_all kind))

namespace Column

variable {part : Totals → Rat} {amount : Entry → Rat}

/-- The totals of a kind are the sums over its accounts. -/
theorem kindRow?_totals (h : Column part amount) (rows : List AccountRow) (kind : AccountKind) :
    part (((kindRow? rows kind).map (·.totals)).getD .zero)
      = sumOf (fun row => part row.totals) (rows.filter (·.account.kind = kind)) := by
  rw [kindRow?]
  by_cases hempty : (rows.filter (·.account.kind = kind)).isEmpty = true
  · rw [if_pos hempty, List.isEmpty_iff.1 hempty, sumOf_nil]
    exact h.zero
  · rw [if_neg hempty, Option.map_some, Option.getD_some, h.sum, sumOf_map]

/-- **A column of a kind** is the sum of the amounts of the entries of this kind. -/
theorem totalsOf_of (h : Column part amount) (l : Ledger) (asOf : Option Date) (kind : AccountKind) :
    part ((of l asOf).totalsOf kind)
      = sumOf amount ((included l asOf).filter fun e => decide (e.account.kind = kind)) := by
  rw [BalanceSheet.totalsOf_of, h.kindRow?_totals]
  exact h.sumOf_rows l asOf fun account => decide (account.kind = kind)

/-- The kinds that have a row have all there is. -/
theorem sum_kindRows (h : Column part amount) (rows : List AccountRow) (kinds : List AccountKind) :
    part (Totals.sum ((kinds.filterMap (kindRow? rows)).map (·.totals)))
      = sumOf (fun kind => part (((kindRow? rows kind).map (·.totals)).getD .zero)) kinds := by
  rw [h.sum, sumOf_map]
  induction kinds with
  | nil => rfl
  | cons kind kinds ih =>
    cases hrow : kindRow? rows kind with
    | none =>
      have hnothing : part (((none : Option KindRow).map (·.totals)).getD .zero) = 0 := h.zero
      rw [List.filterMap_cons_none hrow, ih, sumOf_cons, hrow, hnothing, zero_add]
    | some row =>
      rw [List.filterMap_cons_some hrow, sumOf_cons, ih, sumOf_cons, hrow, Option.map_some,
        Option.getD_some]

/-- **A column of all kinds** is the sum of the amounts of all entries. -/
theorem sum_kinds (h : Column part amount) (l : Ledger) (asOf : Option Date) :
    part (Totals.sum ((of l asOf).kinds.map (·.totals))) = sumOf amount (included l asOf) := by
  have hkind : ∀ e : Entry,
      sumOf (fun kind => if decide (e.account.kind = kind) = true then amount e else 0)
        AccountKind.all = amount e := by
    intro e
    cases e.account.kind <;> simp [AccountKind.all]
  have hkinds := h.sum_kindRows (of l asOf).accounts AccountKind.all
  simp only [← BalanceSheet.totalsOf_of, h.totalsOf_of, sumOf_filter] at hkinds
  rw [sumOf_comm, sumOf_congr fun e _ => hkind e] at hkinds
  exact hkinds

end Column

end BalanceSheet

end Daybook
