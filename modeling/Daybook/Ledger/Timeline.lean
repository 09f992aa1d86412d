import Daybook.Ledger.Basic

/-!
Running balances.

The timeline of an account has one point for each date on which something moves, with the balance
after all entries up to that date. `Timeline.balanceOn` looks up the last point that is not later
than a day. Amounts of all currencies are added up together; `currencies` lists the tags involved.
-/

namespace Daybook

/-- The running balance of an account. -/
structure Timeline where
  account : Account
  /-- The dates in order, each with the balance at its end. -/
  points : List (Date × Rat)
  /-- The tags of the amounts, each once. -/
  currencies : List Currency
  deriving DecidableEq

namespace Timeline

/-- Running sums from a start value on. -/
def runningSums (start : Rat) : List (Date × Rat) → List (Date × Rat)
  | [] => []
  | (date, change) :: rest => (date, start + change) :: runningSums (start + change) rest

/-- The change on each date. -/
def changes (entries : List Entry) : Tally Date Rat :=
  Tally.collect Entry.date (fun sum e => sum.getD 0 + e.effect.amount) [] entries

/-- The timeline of an account; entries of other accounts do not count. -/
def of (account : Account) (entries : List Entry) : Timeline :=
  let own := entries.filter (·.account = account)
  { account
    points := runningSums 0 ((changes own).mergeSort fun a b => decide (a.1 ≤ b.1))
    currencies := Currency.sorted (own.map (·.amount.currency)) }

/-- The dates in order. -/
def dates (t : Timeline) : List Date := t.points.map (·.1)

/-- The balance at each of the dates. -/
def cumulative (t : Timeline) : List Rat := t.points.map (·.2)

/-- Whether amounts of several currencies were added up. -/
def isMixed (t : Timeline) : Bool := 1 < t.currencies.length

/-- The balance after all entries. -/
def finalBalance (t : Timeline) : Rat :=
  match t.points.getLast? with
  | some (_, balance) => balance
  | none => 0

/-- The balance at the end of a day. -/
def balanceOn (t : Timeline) (day : Date) : Rat :=
  match (t.points.takeWhile fun p => decide (p.1 ≤ day)).getLast? with
  | some (_, balance) => balance
  | none => 0

/-- The timelines of the wanted accounts, or of all that have entries, in the order of accounts. The
entries are gone through once. -/
def buildAll (entries : List Entry) (wanted : Option (List Account)) : List Timeline :=
  let relevant := match wanted with
    | some accounts => entries.filter fun e => accounts.contains e.account
    | none => entries
  let byAccount := Tally.groups Entry.account relevant
  let accounts := Account.sorted (wanted.getD byAccount.keys)
  accounts.map fun a => of a ((byAccount.get? a).getD [])

end Timeline

end Daybook
