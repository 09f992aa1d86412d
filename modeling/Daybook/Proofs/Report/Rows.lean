import Daybook.Proofs.Report.Reordering

/-!
What the rows of a balance sheet say.

An account has a row if something was accumulated for it, which is to say that it was opened or moved up to
the date (`mem_keys_accumulate`). Its row has the debits and the credits up to the date, and the balance is
what the debits are more, with the sign that a debit has for the account (`sumOf_effect`). Every opening and
every entry brings a tag with it, so no row is without one. A kind has a total if one of the rows is of this
kind, and the total is the sum of these rows. All of it together is what a sheet of a ledger is
(`isSheetOf_of`).
-/

namespace Daybook

namespace BalanceSheet

/-- Whether a date is not behind the last one that counts, if there is a last one. -/
def UpTo (asOf : Option Date) (date : Date) : Prop :=
  ∀ limit, asOf = some limit → date ≤ limit

/-- A date is included if it is not after the cut-off. -/
theorem includes_iff {asOf : Option Date} {date : Date} :
    includes asOf date = true ↔ UpTo asOf date := by
  unfold UpTo
  cases asOf with
  | none =>
    constructor
    · rintro _ _ hnone
      cases hnone
    · intro _
      rfl
  | some limit =>
    rw [includes, decide_eq_true_iff]
    constructor
    · rintro hle _ heq
      rw [← Option.some.inj heq]
      exact hle
    · intro hall
      exact hall limit rfl

instance (asOf : Option Date) (date : Date) : Decidable (UpTo asOf date) :=
  decidable_of_iff _ includes_iff

theorem decide_upTo (asOf : Option Date) (date : Date) :
    decide (UpTo asOf date) = includes asOf date := by
  rw [Bool.eq_iff_iff, decide_eq_true_iff, includes_iff]

/-! ## Accounts -/

section Account

variable (l : Ledger) (asOf : Option Date) (account : Account)

/-- Whether the account was opened or moved up to a date. -/
def InUse : Prop :=
  (∃ o ∈ l.openings, o.account = account ∧ UpTo asOf o.date)
    ∨ ∃ e ∈ l.entries, e.account = account ∧ UpTo asOf e.date

/-- Whether the account was opened or moved with a tag up to a date. -/
def Tagged (c : Currency) : Prop :=
  (∃ o ∈ l.openings, o.account = account ∧ UpTo asOf o.date ∧ o.currency = c)
    ∨ ∃ e ∈ l.entries, e.account = account ∧ UpTo asOf e.date ∧ e.amount.currency = c

/-- All that was moved on one side of the account up to a date. -/
def moved (direction : Direction) : Rat :=
  sumOf (·.amount.amount) (l.entries.filter fun e =>
    decide (e.account = account ∧ e.direction = direction ∧ UpTo asOf e.date))

end Account

variable {l : Ledger} {asOf : Option Date} {account : Account}

/-- **Something was accumulated for an account that was in use**, and for no other one. -/
theorem mem_keys_accumulate : account ∈ (accumulate l asOf).keys ↔ InUse l asOf account := by
  have hopened : (∃ o ∈ opened l asOf, o.account = account)
      ↔ ∃ o ∈ l.openings, o.account = account ∧ UpTo asOf o.date := by
    apply exists_congr
    intro o
    rw [opened, List.mem_filter, includes_iff, and_assoc, and_comm (a := UpTo asOf o.date)]
  have hincluded : (∃ e ∈ included l asOf, e.account = account)
      ↔ ∃ e ∈ l.entries, e.account = account ∧ UpTo asOf e.date := by
    apply exists_congr
    intro e
    rw [included, List.mem_filter, includes_iff, and_assoc, and_comm (a := UpTo asOf e.date)]
  unfold accumulate
  rw [Tally.mem_keys_collect, Tally.mem_keys_collect]
  simp only [Tally.keys, List.map_nil, List.not_mem_nil, false_or]
  exact or_congr hopened hincluded

/-- The rows of a sheet are those of the accounts that were accumulated, in order. -/
theorem map_account_of (l : Ledger) (asOf : Option Date) :
    (of l asOf).accounts.map (·.account) = Account.sort (accumulate l asOf).keys := by
  rw [accounts_of, List.map_map]
  exact List.map_id _

/-! ## Rows -/

/-- What a row says of its account up to a date. -/
structure IsRowOf (row : AccountRow) (l : Ledger) (asOf : Option Date) : Prop where
  debits : row.totals.debits = moved l asOf row.account .debit
  credits : row.totals.credits = moved l asOf row.account .credit
  balance : row.totals.balance
    = row.account.sign .debit * (row.totals.debits - row.totals.credits)
  increasing : row.currencies.Pairwise fun a b => a.code < b.code
  mem_currencies : ∀ c, c ∈ row.currencies ↔ Tagged l asOf row.account c
  currencies_ne_nil : row.currencies ≠ []

/-- A column of one entry after the other grows by their amounts. -/
theorem Column.foldl_add {part : Totals → Rat} {amount : Entry → Rat} (h : Column part amount)
    (es : List Entry) (t : Totals) : part (es.foldl Totals.add t) = part t + sumOf amount es := by
  induction es generalizing t with
  | nil => rw [List.foldl_nil, sumOf_nil, add_zero]
  | cons e es ih => rw [List.foldl_cons, ih, h.add, sumOf_cons, add_assoc]

/-- The entries of an account up to a date. -/
def own (l : Ledger) (asOf : Option Date) (account : Account) : List Entry :=
  (included l asOf).filter (·.account = account)

/-- Counting the entries of one side for their amounts gives what was moved on this side. -/
theorem sumOf_own_direction (direction : Direction) :
    sumOf (fun e => if decide (e.direction = direction) = true then e.amount.amount else 0)
        (own l asOf account)
      = moved l asOf account direction := by
  rw [← sumOf_filter, own, included, List.filter_filter, List.filter_filter, moved]
  congr 1
  apply List.filter_congr
  intro e _
  rw [Bool.decide_and, Bool.decide_and, decide_upTo, Bool.and_comm (decide (e.direction = direction)),
    Bool.and_assoc]

/-- **A balance is what the debits are more than the credits**, with the sign of a debit. -/
theorem sumOf_effect {es : List Entry} (h : ∀ e ∈ es, e.account = account) :
    sumOf (·.effect.amount) es = account.sign .debit * -Check.netSum es := by
  have heach : ∀ e ∈ es, e.effect.amount = account.sign .debit * -e.signed := by
    intro e he
    rw [e.effect_eq_mul, h e he]
  rw [sumOf_congr heach, sumOf_mul, sumOf_neg, Check.netSum_eq_sumOf]

/-- A row shows an account in use, with the totals and the currencies of its own entries and openings. -/
theorem exists_of_mem_accounts {row : AccountRow} (h : row ∈ (of l asOf).accounts) :
    InUse l asOf row.account
      ∧ row.totals = (own l asOf row.account).foldl Totals.add .zero
      ∧ row.currencies = Currency.sorted
          (((opened l asOf).filter (·.account = row.account)).map (·.currency)
            ++ (own l asOf row.account).map (·.amount.currency)) := by
  rw [accounts_of] at h
  obtain ⟨account, hmem, rfl⟩ := List.mem_map.1 h
  rw [Account.sort, List.mem_mergeSort, mem_keys_accumulate] at hmem
  rw [getD_get?_accumulate]
  exact ⟨hmem, rfl, rfl⟩

/-- The currencies of a row are those that the account is tagged with. -/
theorem mem_tags (c : Currency) :
    c ∈ ((opened l asOf).filter (·.account = account)).map (·.currency)
        ++ (own l asOf account).map (·.amount.currency)
      ↔ Tagged l asOf account c := by
  simp only [Tagged, own, opened, included, List.mem_append, List.mem_map, List.mem_filter,
    includes_iff, decide_eq_true_iff, and_assoc, and_left_comm (b := _ = account)]

/-- **Every row is what it has to be.** -/
theorem isRowOf_of_mem {row : AccountRow} (h : row ∈ (of l asOf).accounts) :
    IsRowOf row l asOf := by
  obtain ⟨huse, htotals, hcurrencies⟩ := exists_of_mem_accounts h
  have hdebits : row.totals.debits = moved l asOf row.account .debit := by
    rw [htotals, column_debits.foldl_add, column_debits.zero, zero_add, ← sumOf_own_direction]
    simp only [Entry.not_isCredit_eq]
  have hcredits : row.totals.credits = moved l asOf row.account .credit := by
    rw [htotals, column_credits.foldl_add, column_credits.zero, zero_add, ← sumOf_own_direction]
    rfl
  have hmem : ∀ c, c ∈ row.currencies ↔ Tagged l asOf row.account c := by
    intro c
    rw [hcurrencies, Currency.mem_sorted, mem_tags]
  constructor
  case debits => exact hdebits
  case credits => exact hcredits
  case balance =>
    have hown : ∀ e ∈ own l asOf row.account, e.account = row.account := by
      intro e he
      exact of_decide_eq_true (List.mem_filter.1 he).2
    have hnet : -Check.netSum (own l asOf row.account)
        = moved l asOf row.account .debit - moved l asOf row.account .credit := by
      rw [Check.netSum_eq_sides, neg_sub, Check.grossSum_eq_sumOf, Check.grossSum_eq_sumOf,
        sumOf_filter, sumOf_filter, sumOf_own_direction, sumOf_own_direction]
    rw [hdebits, hcredits, ← hnet, ← sumOf_effect hown, htotals, column_balance.foldl_add,
      column_balance.zero, zero_add]
  case increasing =>
    rw [hcurrencies]
    exact Currency.pairwise_sorted _
  case mem_currencies => exact hmem
  case currencies_ne_nil =>
    -- What puts the account to use has a tag.
    rcases huse with ⟨o, ho, haccount, hdate⟩ | ⟨e, he, haccount, hdate⟩
    · exact List.ne_nil_of_mem ((hmem o.currency).2 (.inl ⟨o, ho, haccount, hdate, rfl⟩))
    · exact List.ne_nil_of_mem ((hmem e.amount.currency).2 (.inr ⟨e, he, haccount, hdate, rfl⟩))

/-! ## Kinds -/

/-- What the total of a kind says of some rows. -/
structure IsTotalOf (total : KindRow) (rows : List AccountRow) : Prop where
  debits : total.totals.debits
    = sumOf (·.totals.debits) (rows.filter (·.account.kind = total.kind))
  credits : total.totals.credits
    = sumOf (·.totals.credits) (rows.filter (·.account.kind = total.kind))
  balance : total.totals.balance
    = sumOf (·.totals.balance) (rows.filter (·.account.kind = total.kind))

variable {rows : List AccountRow}

/-- The row of a kind shows the sums over its accounts. -/
theorem isTotalOf_of_kindRow? {kind : AccountKind} {total : KindRow}
    (h : kindRow? rows kind = some total) : IsTotalOf total rows := by
  have hkind := kind_of_kindRow? h
  have hcolumn {part : Totals → Rat} {amount : Entry → Rat} (hcol : Column part amount) :
      part total.totals
        = sumOf (fun row => part row.totals) (rows.filter (·.account.kind = total.kind)) := by
    rw [hkind, ← hcol.kindRow?_totals, h, Option.map_some, Option.getD_some]
  exact ⟨hcolumn column_debits, hcolumn column_credits, hcolumn column_balance⟩

/-- A kind has a row if one of its accounts has. -/
theorem exists_kindRow?_iff {kind : AccountKind} :
    (∃ total, kindRow? rows kind = some total) ↔ ∃ row ∈ rows, row.account.kind = kind := by
  rw [kindRow?]
  by_cases hempty : (rows.filter (·.account.kind = kind)).isEmpty = true
  · rw [if_pos hempty]
    rw [List.isEmpty_iff, List.filter_eq_nil_iff] at hempty
    constructor
    · rintro ⟨_, hnone⟩
      cases hnone
    · rintro ⟨row, hrow, hkind⟩
      exact absurd (decide_eq_true hkind) (hempty row hrow)
  · rw [if_neg hempty]
    obtain ⟨row, hrow⟩ := List.exists_mem_of_ne_nil _ fun h => hempty (List.isEmpty_iff.2 h)
    obtain ⟨hmem, hkind⟩ := List.mem_filter.1 hrow
    constructor
    · intro _
      exact ⟨row, hmem, of_decide_eq_true hkind⟩
    · intro _
      exact ⟨_, rfl⟩

/-- The kinds that have a total are those of the rows. -/
theorem mem_kinds_iff {kind : AccountKind} :
    kind ∈ (AccountKind.all.filterMap (kindRow? rows)).map (·.kind)
      ↔ ∃ row ∈ rows, row.account.kind = kind := by
  rw [← exists_kindRow?_iff, List.mem_map]
  constructor
  · rintro ⟨total, htotal, rfl⟩
    obtain ⟨other, -, hother⟩ := List.mem_filterMap.1 htotal
    rw [kind_of_kindRow? hother]
    exact ⟨total, hother⟩
  · rintro ⟨total, htotal⟩
    exact ⟨total, List.mem_filterMap.2 ⟨kind, AccountKind.mem_all kind, htotal⟩,
      kind_of_kindRow? htotal⟩

/-- The totals come in the order of kinds. -/
theorem pairwise_kinds (rows : List AccountRow) :
    ((AccountKind.all.filterMap (kindRow? rows)).map (·.kind.rank)).Pairwise (· < ·) := by
  have hall : AccountKind.all.Pairwise fun a b => a.rank < b.rank := by decide
  rw [List.pairwise_map]
  apply hall.filterMap (kindRow? rows)
  intro kind other hlt total htotal next hnext
  rw [kind_of_kindRow? htotal, kind_of_kindRow? hnext]
  exact hlt

/-! ## Sheets -/

/-- What a balance sheet of a ledger up to a date is. -/
structure IsSheetOf (s : BalanceSheet) (l : Ledger) (asOf : Option Date) : Prop where
  asOf_eq : s.asOf = asOf
  increasing : (s.accounts.map (·.account)).Pairwise (· < ·)
  mem_accounts : ∀ account, account ∈ s.accounts.map (·.account) ↔ InUse l asOf account
  rows : ∀ row ∈ s.accounts, IsRowOf row l asOf
  ranks : (s.kinds.map (·.kind.rank)).Pairwise (· < ·)
  mem_kinds : ∀ kind, kind ∈ s.kinds.map (·.kind) ↔ ∃ row ∈ s.accounts, row.account.kind = kind
  totals : ∀ total ∈ s.kinds, IsTotalOf total s.accounts

/-- **A balance sheet is exact**: its rows are those of the accounts in use, each with the sums of what was
moved, and its totals are those of the kinds of these rows. -/
theorem isSheetOf_of (l : Ledger) (asOf : Option Date) : IsSheetOf (of l asOf) l asOf := by
  constructor
  case asOf_eq => rfl
  case increasing =>
    rw [map_account_of]
    exact Account.pairwise_sort (nodup_keys_accumulate l asOf)
  case mem_accounts =>
    intro account
    rw [map_account_of, Account.sort, List.mem_mergeSort, mem_keys_accumulate]
  case rows =>
    intro row hrow
    exact isRowOf_of_mem hrow
  case ranks => exact pairwise_kinds _
  case mem_kinds =>
    intro kind
    exact mem_kinds_iff
  case totals =>
    intro total htotal
    obtain ⟨kind, -, hkind⟩ := List.mem_filterMap.1 htotal
    exact isTotalOf_of_kindRow? hkind

end BalanceSheet

end Daybook
