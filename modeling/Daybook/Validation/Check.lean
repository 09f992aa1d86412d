import Daybook.Ledger.Timeline
import Daybook.Validation.Finding

/-!
The checks.

There are three notions of a balanced ledger. All credits together equal all debits; in every
transaction the credits equal the debits; and every asserted balance is the running balance of its
account on its date. Amounts of different currencies are added up as plain numbers, and the findings
name the currencies.
-/

namespace Daybook

/-- The checks, in the order in which they run. -/
inductive Check where
  | totals
  | transactions
  | balances
  deriving DecidableEq

namespace Check

-- The sum of no numbers is the literal zero, whatever else is in scope.
attribute [local instance (high)] Zero.ofOfNat0

/-- All checks in order. -/
def all : List Check := [.totals, .transactions, .balances]

/-- The name of a check. -/
def key : Check → String
  | .totals => "credits_debits_balance"
  | .transactions => "isolated_transactions_balance"
  | .balances => "balance_statements"

/-- What a check does. -/
def description : Check → String
  | .totals => "validate that credits and debits balance"
  | .transactions => "validate that all isolated transactions are properly balanced"
  | .balances => "validate that all balance statements are correct"

/-- The check with the given name. -/
def ofKey? (name : String) : Option Check :=
  all.find? fun check => check.key = name

/-- The check that a value names. -/
def ofValue? (v : Value) : Option Check :=
  v.text?.bind ofKey?

/-! ## All credits and all debits -/

/-- The currencies of entries. -/
def currenciesOf (entries : List Entry) : List Currency :=
  Currency.sorted (entries.map (·.amount.currency))

/-- The sum of the amounts of entries. -/
def grossSum (entries : List Entry) : Rat :=
  (entries.map (·.amount.amount)).sum

/-- A finding if credits and debits differ. -/
def totalFindings (l : Ledger) : List Finding :=
  let credits := grossSum l.credits
  let debits := grossSum l.debits
  if credits = debits then [] else [.totals (credits - debits) (currenciesOf l.entries)]

/-! ## Each transaction -/

/-- The credits of entries less their debits. -/
def netSum (entries : List Entry) : Rat :=
  (entries.map Entry.signed).sum

/-- A finding if the entries of a transaction do not add up to nothing. -/
def groupFinding? (entries : List Entry) : Option Finding :=
  match entries with
  | [] => none
  | first :: others =>
    if netSum entries = 0 then none
    else some (.transaction (Span.covering first.span (others.map (·.span))) (netSum entries)
      (currenciesOf entries))

/-- A finding for each transaction that does not balance. -/
def transactionFindings (l : Ledger) : List Finding :=
  l.groups.filterMap fun (_, entries) => groupFinding? entries

/-! ## Asserted balances -/

/-- The timeline of each account with an asserted balance. -/
def assertedTimelines (l : Ledger) : List Timeline :=
  Timeline.buildAll l.entries (some (l.assertions.map (·.account)))

/-- The timeline of an account in a list. -/
def timelineOf (timelines : List Timeline) (a : Account) : Timeline :=
  (timelines.find? (·.account = a)).getD ⟨a, [], []⟩

/-- The currencies that an asserted balance is compared over. -/
def comparedCurrencies (timeline : Timeline) (b : BalanceAssertion) : List Currency :=
  Currency.sorted (timeline.currencies ++ [b.amount.currency])

/-- A finding if the balance is another one than asserted. -/
def assertionFinding? (timeline : Timeline) (b : BalanceAssertion) : Option Finding :=
  let balance := timeline.balanceOn b.date
  if balance = b.amount.amount then none
  else some (.balance b balance (comparedCurrencies timeline b))

/-- A finding for each asserted balance that is wrong. -/
def balanceFindings (l : Ledger) : List Finding :=
  let timelines := assertedTimelines l
  l.assertions.filterMap fun b => assertionFinding? (timelineOf timelines b.account) b

/-- What a check finds wrong. -/
def run : Check → Ledger → List Finding
  | .totals => totalFindings
  | .transactions => transactionFindings
  | .balances => balanceFindings

end Check

end Daybook
