import Daybook.Data.Tally
import Daybook.Syntax.Statement
import Daybook.Source.Span

/-!
Ledgers.

A ledger lists the entries, the asserted balances and the openings of a source. An entry is one leg
of a transaction; the legs of one transaction share the number of their parent. All lists are in the
order of the source.
-/

namespace Daybook

/-- One leg of a transaction, numbered and dated. -/
structure Entry where
  id : Int
  date : Date
  description : String
  direction : Direction
  account : Account
  amount : Money
  span : Span
  parent : Option Int
  deriving DecidableEq

/-- On the given date, the balance of the account is the given amount. -/
structure BalanceAssertion where
  id : Int
  account : Account
  date : Date
  amount : Money
  span : Span
  deriving DecidableEq

/-- The account is in use from the given date on, with the given currency. -/
structure AccountOpening where
  id : Int
  account : Account
  date : Date
  currency : Currency
  span : Span
  deriving DecidableEq

/-- A ledger. -/
structure Ledger where
  entries : List Entry := []
  assertions : List BalanceAssertion := []
  openings : List AccountOpening := []
  deriving DecidableEq

namespace Entry

/-- Whether the entry is a credit. -/
def isCredit (e : Entry) : Bool := e.direction = .credit

/-- What the entry adds to the natural balance of its account. -/
def effect (e : Entry) : Money := e.amount.scale (e.account.sign e.direction)

/-- The amount, negative for a debit. -/
def signed (e : Entry) : Rat := if e.isCredit then e.amount.amount else -e.amount.amount

/-- The number under which an entry is grouped: that of its parent, or else its own. -/
def groupKey (e : Entry) : Int := e.parent.getD e.id

end Entry

namespace Ledger

/-- Whether nothing is in the ledger. -/
def isEmpty (l : Ledger) : Bool :=
  l.entries.isEmpty && l.assertions.isEmpty && l.openings.isEmpty

/-- The entries that are credits. -/
def credits (l : Ledger) : List Entry := l.entries.filter Entry.isCredit

/-- The entries that are debits. -/
def debits (l : Ledger) : List Entry := l.entries.filter fun e => !e.isCredit

/-- Every account that is mentioned, in order. -/
def accounts (l : Ledger) : List Account :=
  Account.sorted (l.entries.map (·.account) ++ l.assertions.map (·.account)
    ++ l.openings.map (·.account))

/-- The entries of an account. -/
def entriesOf (l : Ledger) (a : Account) : List Entry :=
  l.entries.filter (·.account = a)

/-- The asserted balances of an account. -/
def assertionsOf (l : Ledger) (a : Account) : List BalanceAssertion :=
  l.assertions.filter (·.account = a)

/-- The first opening of an account. -/
def openingOf? (l : Ledger) (a : Account) : Option AccountOpening :=
  l.openings.find? (·.account = a)

/-- The entries by transaction, in the order in which the transactions first appear. -/
def groups (l : Ledger) : Tally Int (List Entry) :=
  Tally.groups Entry.groupKey l.entries

end Ledger

end Daybook
