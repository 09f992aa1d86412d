import Daybook.Proofs.Guarded.Numeric
import Daybook.Proofs.Ledger.Reconstruction
import Daybook.Proofs.Ledger.Timeline
import Daybook.Proofs.Validation.Running

/-!
Building and checking a ledger.

Statements are numbered one by one, and anything else among them would be refused. A check writes its
amounts as text as soon as it finds something; it looks up timelines by account and balances by place, and
covers the spans of a transaction. All that is looked up is there: statements are all that parsing gives,
every account with an asserted balance has a timeline, and a place found by bisection is in the timeline.
So all checks that are selected run to their end (`validated_eq`).
-/

namespace Daybook.Guarded

open Check (grossSum netSum currenciesOf comparedCurrencies assertedTimelines timelineOf)

/-! ## Ledgers -/

/-- The ledger of statements. -/
def ledger (statements : List (Spanned Statement)) : Guarded Ledger :=
  guard .statement (Ledger.buildOrRefuse (statements.map .ok))

/-- **Whatever is parsed is a statement.** -/
theorem ledger_eq (statements : List (Spanned Statement)) :
    ledger statements = .ok (Ledger.build statements) := by
  have hall := Ledger.mapM_statementOf_append statements []
  rw [List.append_nil, List.mapM_nil] at hall
  rw [ledger, Ledger.buildOrRefuse_eq, hall]
  show Except.ok (Ledger.build (statements ++ [])) = _
  rw [List.append_nil]

/-! ## Findings as text -/

/-- The amount that was found. -/
def found : Finding → Guarded String
  | .totals excess _ => amount excess
  | .transaction _ excess _ => amount excess
  | .balance assertion actual _ => money ⟨actual, assertion.amount.currency⟩

/-- The amount that should have been found. -/
def expected : Finding → Guarded String
  | .totals .. => .ok "0"
  | .transaction .. => .ok "0"
  | .balance assertion _ _ => money assertion.amount

/-- The finding as a notice. -/
def notice (f : Finding) : Guarded Notice := do
  let found ← found f
  let expected ← expected f
  return { message := f.message, span := f.span?, details := some f.details, found := some found,
           expected := some expected }

/-- What was found is written, whatever amount it is. -/
theorem found_eq (f : Finding) : found f = .ok f.found := by
  cases f with
  | totals excess _ => exact amount_eq excess
  | transaction _ excess _ => exact amount_eq excess
  | balance assertion actual _ => exact money_eq ⟨actual, assertion.amount.currency⟩

/-- What was expected is written. -/
theorem expected_eq (f : Finding) : expected f = .ok f.expected := by
  cases f with
  | totals => rfl
  | transaction => rfl
  | balance assertion _ _ => exact money_eq assertion.amount

/-- The notice of every finding is made without a breach. -/
theorem notice_eq (f : Finding) : notice f = .ok f.notice := by
  rw [notice, bind_of_eq (found_eq f), bind_of_eq (expected_eq f)]
  rfl

/-! ## The checks -/

/-- What is reported if credits and debits differ. -/
def totals (l : Ledger) : Guarded (List Notice) :=
  let credits := grossSum l.credits
  let debits := grossSum l.debits
  if credits = debits then .ok []
  else do
    let n ← notice (.totals (credits - debits) (currenciesOf l.entries))
    return [n]

/-- The check of the totals goes through on every ledger. -/
theorem totals_eq (l : Ledger) : totals l = .ok ((Check.totalFindings l).map Finding.notice) := by
  unfold totals Check.totalFindings
  dsimp only
  split
  · rfl
  · rw [bind_of_eq (notice_eq _)]
    rfl

/-- What is reported if the entries of a transaction do not add up to nothing. -/
def group (entries : List Entry) : Guarded (Option Notice) :=
  if netSum entries = 0 then .ok none
  else do
    let range ← covering (entries.map (·.span))
    let n ← notice (.transaction range (netSum entries) (currenciesOf entries))
    return some n

/-- The check of a single group goes through. Without entries it has no excess, so that no span is asked for. -/
theorem group_eq (entries : List Entry) :
    group entries = .ok ((Check.groupFinding? entries).map Finding.notice) := by
  unfold group Check.groupFinding?
  cases entries with
  | nil => rfl
  | cons first others =>
    dsimp only
    split
    · rfl
    · rw [List.map_cons, bind_of_eq (covering_cons _ _), bind_of_eq (notice_eq _)]
      rfl

/-- What is reported about each transaction. -/
def transactions (l : Ledger) : Guarded (List Notice) := do
  let reported ← l.groups.mapM fun g => group g.2
  return reported.filterMap id

/-- The check of all groups goes through. -/
theorem transactions_eq (l : Ledger) :
    transactions l = .ok ((Check.transactionFindings l).map Finding.notice) := by
  rw [transactions, bind_of_eq (mapM_eq (fun g => group_eq g.2) l.groups),
    Check.transactionFindings, List.map_filterMap, List.filterMap_map]
  rfl

/-- The balance at the end of a day: the one at the place before the first later date. -/
def balanceOn (t : Timeline) (day : Date) : Guarded Rat :=
  let place := (t.dates.takeWhile fun date => decide (date ≤ day)).length
  if place = 0 then .ok 0 else item t.cumulative (place - 1)

/-- **A place found by bisection is in the timeline.** -/
theorem balanceOn_eq (t : Timeline) (day : Date) : balanceOn t day = .ok (t.balanceOn day) := by
  -- The points up to the day are the first ones, so the last of them is at the same place in both lists.
  obtain ⟨later, hpoints⟩ := List.takeWhile_prefix (fun p : Date × Rat => decide (p.1 ≤ day))
    (l := t.points)
  have hplace : (t.dates.takeWhile fun date => decide (date ≤ day)).length
      = (t.points.takeWhile fun p => decide (p.1 ≤ day)).length := by
    rw [Timeline.dates, List.takeWhile_map, List.length_map]
    rfl
  unfold balanceOn Timeline.balanceOn
  rw [hplace]
  generalize t.points.takeWhile (fun p => decide (p.1 ≤ day)) = upTo at hpoints
  dsimp only
  split
  · next hzero => rw [List.length_eq_zero_iff.1 hzero]; rfl
  · next hpos =>
    have hlt : upTo.length - 1 < upTo.length := by omega
    rw [item, Timeline.cumulative, List.getElem?_map, ← hpoints, List.getElem?_append_left hlt,
      List.getLast?_eq_getElem?, List.getElem?_eq_getElem hlt]
    rfl

/-- The timeline of an account. -/
def timeline (timelines : List Timeline) (a : Account) : Guarded Timeline :=
  match timelines.find? (·.account = a) with
  | some t => .ok t
  | none => .error (.timeline a)

/-- **Accounts with asserted balances have timelines.** -/
theorem timeline_eq {l : Ledger} {b : BalanceAssertion} (h : b ∈ l.assertions) :
    timeline (assertedTimelines l) b.account = .ok (timelineOf (assertedTimelines l) b.account) := by
  have haccount : b.account ∈ l.assertions.map (·.account) := List.mem_map.2 ⟨b, h, rfl⟩
  obtain ⟨t, ht, htb⟩ := Timeline.exists_mem_buildAll l.entries haccount
  unfold timeline timelineOf
  cases hfind : (assertedTimelines l).find? (·.account = b.account) with
  | none => exact absurd (decide_eq_true htb) (List.find?_eq_none.1 hfind t ht)
  | some found => rfl

/-- What is reported if a balance is another one than asserted. -/
def assertedBalance (timelines : List Timeline) (b : BalanceAssertion) :
    Guarded (Option Notice) := do
  let t ← timeline timelines b.account
  let balance ← balanceOn t b.date
  if balance = b.amount.amount then return none
  else
    let n ← notice (.balance b balance (comparedCurrencies t b))
    return some n

/-- An asserted balance finds the timeline of its account, because timelines are built for all asserted accounts. -/
theorem assertedBalance_eq {l : Ledger} {b : BalanceAssertion} (h : b ∈ l.assertions) :
    assertedBalance (assertedTimelines l) b
      = .ok ((Check.assertionFinding? (timelineOf (assertedTimelines l) b.account) b).map
        Finding.notice) := by
  rw [assertedBalance, bind_of_eq (timeline_eq h), bind_of_eq (balanceOn_eq _ _),
    Check.assertionFinding?]
  split
  · rfl
  · rw [bind_of_eq (notice_eq _)]
    rfl

/-- What is reported about each asserted balance. -/
def balances (l : Ledger) : Guarded (List Notice) := do
  let timelines := assertedTimelines l
  let reported ← l.assertions.mapM (assertedBalance timelines)
  return reported.filterMap id

/-- The check of the asserted balances goes through. -/
theorem balances_eq (l : Ledger) :
    balances l = .ok ((Check.balanceFindings l).map Finding.notice) := by
  rw [balances, bind_of_eq (mapM_eq_of_mem fun _ h => assertedBalance_eq h),
    Check.balanceFindings, List.map_filterMap, List.filterMap_map]
  rfl

/-! ## Running them -/

/-- What a check reports. -/
structure Reported where
  check : Check
  notices : List Notice
  deriving DecidableEq

/-- What the checks that ran report, and the checks that did not run. -/
structure Report where
  outcomes : List Reported
  skipped : List Check
  deriving DecidableEq

/-- An outcome with its findings as notices. -/
def Reported.of (o : Outcome) : Reported :=
  ⟨o.check, o.findings.map Finding.notice⟩

/-- The outcomes of checks with their findings as notices. -/
def Report.of (v : Validation) : Report :=
  ⟨v.outcomes.map Reported.of, v.skipped⟩

/-- Runs a check. -/
def check (l : Ledger) : Check → Guarded Reported
  | .totals => do return ⟨.totals, ← totals l⟩
  | .transactions => do return ⟨.transactions, ← transactions l⟩
  | .balances => do return ⟨.balances, ← balances l⟩

/-- Each check goes through, and reports what it finds. -/
theorem check_eq (l : Ledger) (c : Check) : check l c = .ok (.of (Outcome.of l c)) := by
  cases c with
  | totals => rw [check, bind_of_eq (totals_eq l)]; rfl
  | transactions => rw [check, bind_of_eq (transactions_eq l)]; rfl
  | balances => rw [check, bind_of_eq (balances_eq l)]; rfl

/-- Runs checks on a ledger. -/
def run (l : Ledger) (failFast : Bool) : List Check → Guarded Report
  | [] => .ok ⟨[], []⟩
  | c :: checks => do
    let outcome ← check l c
    if failFast && !outcome.notices.isEmpty then return ⟨[outcome], checks⟩
    else
      let rest ← run l failFast checks
      return ⟨outcome :: rest.outcomes, rest.skipped⟩

/-- A run of checks goes through, whether it stops at the first failure or not. -/
theorem run_eq (l : Ledger) (failFast : Bool) (checks : List Check) :
    run l failFast checks = .ok (.of (Validation.run l failFast checks)) := by
  induction checks with
  | nil => rfl
  | cons c checks ih =>
    have hempty : (Reported.of (Outcome.of l c)).notices.isEmpty = (Outcome.of l c).ok :=
      List.isEmpty_map
    rw [run, bind_of_eq (check_eq l c), hempty, Validation.run]
    dsimp only
    split
    · rfl
    · rw [bind_of_eq ih]
      rfl

/-- Runs the checks with the given names on a ledger. -/
def validated (l : Ledger) (names : Option (List String)) (failFast : Bool) : Guarded Report := do
  let checks ← guard .check (Check.resolve names)
  run l failFast checks

/-- The names of the checks of a selection, if there is one. -/
def names (selection : Option (List Check)) : Option (List String) :=
  selection.map fun checks => checks.map Check.key

/-- The checks of a selection in their own order; all of them if there is none. -/
def chosen : Option (List Check) → List Check
  | none => Check.all
  | some checks => Check.all.filter checks.contains

/-- The names of checks are names of checks. -/
theorem resolve_names (selection : Option (List Check)) :
    Check.resolve (names selection) = .ok (chosen selection) := by
  cases selection with
  | none => rfl
  | some checks => exact Check.resolve_map_key checks

/-- Names of registered checks are resolved, and the checks that they name are run. -/
theorem validate_names (l : Ledger) (selection : Option (List Check)) (failFast : Bool) :
    l.validate (names selection) failFast
      = .ok (Validation.run l failFast (chosen selection)) := by
  rw [Ledger.validate, resolve_names]
  rfl

/-- **Every selection of checks runs on every ledger.** -/
theorem validated_eq (l : Ledger) (selection : Option (List Check)) (failFast : Bool) :
    validated l (names selection) failFast
      = .ok (.of (Validation.run l failFast (chosen selection))) := by
  rw [validated, resolve_names]
  exact run_eq l failFast (chosen selection)

end Daybook.Guarded
