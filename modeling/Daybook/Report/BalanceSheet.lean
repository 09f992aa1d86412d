import Daybook.Ledger.Basic

/-!
Balance sheets.

A balance sheet has a row for each account that was opened or moved up to a date, in the order of
accounts, and a total for each kind that has rows. Amounts of different currencies are added up as
plain numbers; a row names the currencies involved.
-/

namespace Daybook

/-- Gross debits, gross credits and the natural balance. -/
structure Totals where
  debits : Rat
  credits : Rat
  balance : Rat
  deriving DecidableEq

namespace Totals

-- The sum of no numbers is the literal zero, whatever else is in scope.
attribute [local instance (high)] Zero.ofOfNat0

/-- Nothing moved. -/
def zero : Totals := ⟨0, 0, 0⟩

/-- The totals with one more entry. -/
def add (t : Totals) (e : Entry) : Totals :=
  let amount := e.amount.amount
  { debits := if e.isCredit then t.debits else t.debits + amount
    credits := if e.isCredit then t.credits + amount else t.credits
    balance := t.balance + e.effect.amount }

/-- The sum of totals. -/
def sum (ts : List Totals) : Totals :=
  { debits := (ts.map (·.debits)).sum
    credits := (ts.map (·.credits)).sum
    balance := (ts.map (·.balance)).sum }

end Totals

/-- What is known about an account. -/
structure AccountRow where
  account : Account
  currencies : List Currency
  totals : Totals
  deriving DecidableEq

/-- The totals of a kind. -/
structure KindRow where
  kind : AccountKind
  totals : Totals
  deriving DecidableEq

/-- A balance sheet. -/
structure BalanceSheet where
  asOf : Option Date
  accounts : List AccountRow
  kinds : List KindRow
  deriving DecidableEq

namespace BalanceSheet

/-- Whether a date counts. -/
def includes (asOf : Option Date) (date : Date) : Bool :=
  match asOf with
  | some limit => date ≤ limit
  | none => true

/-- The currencies and totals of an account that something was added to. -/
structure Accumulated where
  currencies : List Currency := []
  totals : Totals := .zero
  deriving DecidableEq

/-- Openings add a currency. -/
def addOpening (a : Option Accumulated) (o : AccountOpening) : Accumulated :=
  let a := a.getD {}
  { a with currencies := a.currencies ++ [o.currency] }

/-- Entries add a currency and amounts. -/
def addEntry (a : Option Accumulated) (e : Entry) : Accumulated :=
  let a := a.getD {}
  ⟨a.currencies ++ [e.amount.currency], a.totals.add e⟩

/-- Everything up to the date by account. -/
def accumulate (l : Ledger) (asOf : Option Date) : Tally Account Accumulated :=
  let opened := Tally.collect AccountOpening.account addOpening []
    (l.openings.filter fun o => includes asOf o.date)
  Tally.collect Entry.account addEntry opened (l.entries.filter fun e => includes asOf e.date)

/-- The total of a kind, if it has rows. -/
def kindRow? (rows : List AccountRow) (kind : AccountKind) : Option KindRow :=
  let members := rows.filter (·.account.kind = kind)
  if members.isEmpty then none else some ⟨kind, Totals.sum (members.map (·.totals))⟩

/-- The balance sheet of a ledger. -/
def of (l : Ledger) (asOf : Option Date) : BalanceSheet :=
  let tally := accumulate l asOf
  let rows := (Account.sort tally.keys).map fun account =>
    let a := (tally.get? account).getD {}
    { account, currencies := Currency.sorted a.currencies, totals := a.totals : AccountRow }
  { asOf, accounts := rows, kinds := AccountKind.all.filterMap (kindRow? rows) }

/-- The row of an account. -/
def accountRow? (s : BalanceSheet) (a : Account) : Option AccountRow :=
  s.accounts.find? (·.account = a)

/-- The total of a kind. -/
def kindTotal? (s : BalanceSheet) (kind : AccountKind) : Option KindRow :=
  s.kinds.find? (·.kind = kind)

end BalanceSheet

end Daybook
