import Daybook.Ledger.Timeline
import Daybook.Proofs.Account.Order
import Daybook.Proofs.Data.Tally

/-!
Running balances are sums.

The points of a timeline are the sums of the changes up to each date. Since the dates are in order, those
not later than a day come first, and the last of them has the sum of their changes (`balanceOn_points`).
The changes collect what the entries add on each date; so the balance on a day is the sum of what all
entries up to that day add to the account, in whatever order they are listed (`balanceOn_of`).
-/

namespace Daybook

namespace Timeline

/-! ## The points -/

/-- A running sum does not depend on what comes after it. -/
theorem takeWhile_runningSums (start : Rat) (changes : List (Date × Rat)) (day : Date) :
    (runningSums start changes).takeWhile (fun p => decide (p.1 ≤ day))
      = runningSums start (changes.takeWhile fun p => decide (p.1 ≤ day)) := by
  induction changes generalizing start with
  | nil => rfl
  | cons first rest ih =>
    obtain ⟨date, change⟩ := first
    rw [runningSums]
    by_cases hdate : date ≤ day
    · rw [List.takeWhile_cons_of_pos (by simpa using hdate),
        List.takeWhile_cons_of_pos (by simpa using hdate), runningSums, ih]
    · rw [List.takeWhile_cons_of_neg (by simpa using hdate),
        List.takeWhile_cons_of_neg (by simpa using hdate), runningSums]

/-- The last running sum is the sum of all. -/
theorem getLast?_runningSums (start : Rat) (changes : List (Date × Rat)) :
    ((runningSums start changes).getLast?.map (·.2)).getD start = start + sumOf (·.2) changes := by
  induction changes generalizing start with
  | nil => rw [sumOf_nil, add_zero]; rfl
  | cons first rest ih =>
    obtain ⟨date, change⟩ := first
    rw [runningSums, List.getLast?_cons, sumOf_cons, ← add_assoc, ← ih]
    cases (runningSums (start + change) rest).getLast? with
    | none => rfl
    | some last => rfl

/-- Where the dates are in order, those that are not later than a day come first. -/
theorem takeWhile_eq_filter {changes : List (Date × Rat)}
    (h : changes.Pairwise fun a b => a.1 ≤ b.1) (day : Date) :
    changes.takeWhile (fun p => decide (p.1 ≤ day))
      = changes.filter fun p => decide (p.1 ≤ day) := by
  induction changes with
  | nil => rfl
  | cons first rest ih =>
    obtain ⟨hfirst, hrest⟩ := List.pairwise_cons.1 h
    by_cases hdate : first.1 ≤ day
    · rw [List.takeWhile_cons_of_pos (by simpa using hdate),
        List.filter_cons_of_pos (by simpa using hdate), ih hrest]
    · have hlater : ∀ p ∈ rest, ¬ decide (p.1 ≤ day) = true := by
        intro p hp hle
        exact hdate (Nat.le_trans (hfirst p hp) (of_decide_eq_true hle))
      rw [List.takeWhile_cons_of_neg (by simpa using hdate),
        List.filter_cons_of_neg (by simpa using hdate), List.filter_eq_nil_iff.2 hlater]

/-- The balance on a day is that of the last point up to the day. -/
theorem balanceOn_eq (t : Timeline) (day : Date) :
    t.balanceOn day
      = ((t.points.takeWhile fun p => decide (p.1 ≤ day)).getLast?.map (·.2)).getD 0 := by
  rw [balanceOn]
  cases (t.points.takeWhile fun p => decide (p.1 ≤ day)).getLast? with
  | none => rfl
  | some point => rfl

/-- On a day, a timeline has the sum of the changes up to that day. -/
theorem balanceOn_points {t : Timeline} {changes : List (Date × Rat)}
    (hpoints : t.points = runningSums 0 changes)
    (hsorted : changes.Pairwise fun a b => a.1 ≤ b.1) (day : Date) :
    t.balanceOn day = sumOf (·.2) (changes.filter fun p => decide (p.1 ≤ day)) := by
  rw [balanceOn_eq, hpoints, takeWhile_runningSums, getLast?_runningSums, zero_add,
    takeWhile_eq_filter hsorted]

/-! ## The changes -/

/-- The changes in order of date. -/
def orderedChanges (entries : List Entry) : List (Date × Rat) :=
  (changes entries).mergeSort fun a b => decide (a.1 ≤ b.1)

/-- Changes are put in order by date. -/
theorem pairwise_orderedChanges (entries : List Entry) :
    (orderedChanges entries).Pairwise fun a b => a.1 ≤ b.1 := by
  have htrans : ∀ a b c : Date × Rat, decide (a.1 ≤ b.1) = true → decide (b.1 ≤ c.1) = true →
      decide (a.1 ≤ c.1) = true := by
    intro a b c hab hbc
    exact decide_eq_true (Nat.le_trans (of_decide_eq_true hab) (of_decide_eq_true hbc))
  have htotal : ∀ a b : Date × Rat, (decide (a.1 ≤ b.1) || decide (b.1 ≤ a.1)) = true := by
    intro a b
    rw [Bool.or_eq_true, decide_eq_true_iff, decide_eq_true_iff]
    exact Nat.le_total a.1.key b.1.key
  have hsorted := List.pairwise_mergeSort htrans htotal (changes entries)
  exact hsorted.imp of_decide_eq_true

/-- **The changes up to a day add up to what the entries up to that day add**, however they are listed. -/
theorem sumOf_changes (entries : List Entry) (p : Date → Bool) :
    sumOf (·.2) ((changes entries).filter fun c => p c.1)
      = sumOf (·.effect.amount) (entries.filter fun e => p e.date) := by
  rw [sumOf_filter, sumOf_filter, changes,
    Tally.sumOf_collect (fun e : Entry => if p e.date = true then e.effect.amount else 0), sumOf_nil,
    zero_add]
  intro e sum
  by_cases hp : p e.date = true
  · cases sum with
    | none => simp only [hp, if_true, Option.getD_none, Option.elim_none]
    | some sum => simp only [hp, if_true, Option.getD_some, Option.elim_some]
  · cases sum with
    | none => simp only [hp, Bool.false_eq_true, if_false, Option.elim_none, add_zero]
    | some sum => simp only [hp, Bool.false_eq_true, if_false, Option.elim_some, add_zero]

/-- **The balance of an account on a day** is the sum of what its entries up to that day add. -/
theorem balanceOn_of (account : Account) (entries : List Entry) (day : Date) :
    (Timeline.of account entries).balanceOn day
      = sumOf (·.effect.amount)
          ((entries.filter (·.account = account)).filter fun e => decide (e.date ≤ day)) := by
  have hpoints : (Timeline.of account entries).points
      = runningSums 0 (orderedChanges (entries.filter (·.account = account))) := rfl
  have hperm := (List.mergeSort_perm (changes (entries.filter (·.account = account)))
    fun a b => decide (a.1 ≤ b.1)).filter fun c => decide (c.1 ≤ day)
  rw [balanceOn_points hpoints (pairwise_orderedChanges _), orderedChanges, sumOf_perm hperm,
    sumOf_changes _ fun date => decide (date ≤ day)]

/-! ## All timelines -/

/-- A timeline depends on the entries of its account only. -/
theorem of_congr {account : Account} {entries others : List Entry}
    (h : entries.filter (·.account = account) = others.filter (·.account = account)) :
    Timeline.of account entries = Timeline.of account others := by
  rw [Timeline.of, Timeline.of, h]

/-- The entries that count for the accounts that are wanted. -/
def relevant (entries : List Entry) : Option (List Account) → List Entry
  | some accounts => entries.filter fun e => accounts.contains e.account
  | none => entries

/-- All timelines are those of single accounts, each over the entries about it. -/
theorem buildAll_eq (entries : List Entry) (wanted : Option (List Account)) :
    buildAll entries wanted
      = (Account.sorted (wanted.getD (Tally.keys (Tally.groups Entry.account (relevant entries wanted))))).map
          fun account => Timeline.of account
            ((relevant entries wanted).filter fun e => decide (e.account = account)) := by
  have hgroup : ∀ account, Timeline.of account
      ((Tally.get? (Tally.groups Entry.account (relevant entries wanted)) account).getD [])
        = Timeline.of account
          ((relevant entries wanted).filter fun e => decide (e.account = account)) := by
    intro account
    rw [Tally.getD_get?_groups]
  rw [← List.map_congr_left fun account _ => hgroup account]
  cases wanted with
  | some | none => rfl

/-- **Every timeline that is built is that of its account**, whichever accounts are wanted. -/
theorem eq_of_mem_buildAll {entries : List Entry} {wanted : Option (List Account)} {t : Timeline}
    (h : t ∈ buildAll entries wanted) : t = Timeline.of t.account entries := by
  rw [buildAll_eq] at h
  obtain ⟨account, hmem, rfl⟩ := List.mem_map.1 h
  rw [Account.mem_sorted] at hmem
  apply of_congr
  rw [List.filter_filter]
  cases wanted with
  | none =>
    apply List.filter_congr
    intro e _
    exact Bool.and_self _
  | some accounts =>
    rw [relevant, List.filter_filter]
    apply List.filter_congr
    intro e _
    by_cases haccount : e.account = account
    · have hwanted : accounts.contains e.account = true := by
        rw [haccount, List.contains_iff_mem]
        exact hmem
      rw [hwanted, Bool.and_true, Bool.and_self]
    · rw [decide_eq_false haccount, Bool.false_and, Bool.false_and]

/-- An account that is asked for has a timeline. -/
theorem exists_mem_buildAll (entries : List Entry) {accounts : List Account} {account : Account}
    (h : account ∈ accounts) :
    ∃ t ∈ buildAll entries (some accounts), t.account = account :=
  ⟨_, List.mem_map.2 ⟨account, Account.mem_sorted.2 h, rfl⟩, rfl⟩

end Timeline

end Daybook
