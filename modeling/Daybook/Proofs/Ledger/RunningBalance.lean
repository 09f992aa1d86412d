import Daybook.Proofs.Account.Order
import Daybook.Proofs.Ledger.Timeline

/-!
What a timeline holds.

Summing up the changes keeps their dates, and there is one change a date; so the dates of a timeline go up,
and they are the dates of the entries of its account (`mem_dates_of`). Any place that parts the dates into
those up to a day and the later ones gives the balance on that day (`balanceOn_of_place`): that is all a
bisection has to find. With the balances as sums of entries, this is what a timeline is (`runs_of`).

Several timelines are built in one pass over the entries, which are put into one group an account. The group of
an account has all the entries that its timeline depends on, so each timeline is the one of its account
alone (`lists_buildAll`).
-/

namespace Daybook

namespace Timeline

/-! ## The dates -/

/-- Summing up changes keeps their dates. -/
theorem map_fst_runningSums (start : Rat) (changes : List (Date × Rat)) :
    (runningSums start changes).map (·.1) = changes.map (·.1) := by
  induction changes generalizing start with
  | nil => rfl
  | cons first rest ih =>
    obtain ⟨date, change⟩ := first
    rw [runningSums, List.map_cons, List.map_cons, ih]

/-- The dates of a timeline are those of the changes of its account, in order. -/
theorem dates_of (account : Account) (entries : List Entry) :
    (Timeline.of account entries).dates
      = (orderedChanges (entries.filter (·.account = account))).map (·.1) :=
  map_fst_runningSums 0 _

/-- Ordering the changes neither adds nor removes a date. -/
theorem perm_dates_orderedChanges (entries : List Entry) :
    ((orderedChanges entries).map (·.1)).Perm (Tally.keys (changes entries)) :=
  (List.mergeSort_perm (changes entries) fun a b => decide (a.1 ≤ b.1)).map (·.1)

/-- **The dates of a timeline go up.** -/
theorem pairwise_dates_of (account : Account) (entries : List Entry) :
    (Timeline.of account entries).dates.Pairwise (· < ·) := by
  rw [dates_of, List.pairwise_map]
  generalize entries.filter (·.account = account) = own
  -- Sorting puts no later date in front of an earlier one, and there is one change a date.
  have hnodup : ((orderedChanges own).map (·.1)).Nodup := by
    apply (perm_dates_orderedChanges own).nodup_iff.2
    exact Tally.nodup_keys_collect (t := []) List.nodup_nil own
  have hboth := (pairwise_orderedChanges own).and (List.pairwise_map.1 hnodup)
  apply hboth.imp
  rintro a b ⟨hle, hne⟩
  have hkey : a.1.key ≠ b.1.key := fun h => hne (Date.key_injective h)
  rw [Date.le_def] at hle
  rw [Date.lt_def]
  omega

/-- **They are the dates of the entries of its account.** -/
theorem mem_dates_of {account : Account} {entries : List Entry} {day : Date} :
    day ∈ (Timeline.of account entries).dates
      ↔ ∃ e ∈ entries, e.account = account ∧ e.date = day := by
  rw [dates_of, (perm_dates_orderedChanges _).mem_iff, changes, Tally.mem_keys_collect]
  constructor
  · rintro (hnil | ⟨e, he, rfl⟩)
    · cases hnil
    · obtain ⟨hmem, haccount⟩ := List.mem_filter.1 he
      exact ⟨e, hmem, of_decide_eq_true haccount, rfl⟩
  · rintro ⟨e, hmem, haccount, rfl⟩
    right
    exact ⟨e, List.mem_filter.2 ⟨hmem, decide_eq_true haccount⟩, rfl⟩

/-! ## Looking up a day -/

/-- The points up to a day are those in front of its place. -/
theorem takeWhile_eq_take {points : List (Date × Rat)} {day : Date} {place : Nat}
    (hupTo : ∀ p ∈ points.take place, p.1 ≤ day) (hlater : ∀ p ∈ points.drop place, day < p.1) :
    points.takeWhile (fun p => decide (p.1 ≤ day)) = points.take place := by
  have hnone : (points.drop place).takeWhile (fun p => decide (p.1 ≤ day)) = [] := by
    cases hdrop : points.drop place with
    | nil => rfl
    | cons p rest =>
      have hlt : day < p.1 := hlater p (by rw [hdrop]; exact List.mem_cons_self)
      apply List.takeWhile_cons_of_neg
      rw [decide_eq_true_iff, Date.le_def]
      rw [Date.lt_def] at hlt
      omega
  conv => lhs; rw [← List.take_append_drop place points]
  rw [List.takeWhile_append_of_pos fun p hp => decide_eq_true (hupTo p hp), hnone, List.append_nil]

/-- **A place that parts the dates gives the balance**: nothing at the beginning, and else the balance before
the place. -/
theorem balanceOn_of_place {t : Timeline} {day : Date} {place : Nat} (hle : place ≤ t.dates.length)
    (hupTo : ∀ date ∈ t.dates.take place, date ≤ day)
    (hlater : ∀ date ∈ t.dates.drop place, day < date) :
    (place = 0 → t.balanceOn day = 0)
      ∧ (0 < place → t.cumulative[place - 1]? = some (t.balanceOn day)) := by
  have hlength : place ≤ t.points.length := by
    rw [dates, List.length_map] at hle
    exact hle
  have htake : t.points.takeWhile (fun p => decide (p.1 ≤ day)) = t.points.take place := by
    apply takeWhile_eq_take
    · intro p hp
      apply hupTo
      rw [dates, ← List.map_take]
      exact List.mem_map.2 ⟨p, hp, rfl⟩
    · intro p hp
      apply hlater
      rw [dates, ← List.map_drop]
      exact List.mem_map.2 ⟨p, hp, rfl⟩
  rw [balanceOn_eq, htake]
  constructor
  · rintro rfl
    rfl
  · intro hpos
    -- The last of the first points is the one right before the place.
    have hlt : place - 1 < t.points.length := by omega
    have hlast : (t.points.take place).getLast? = some t.points[place - 1] := by
      rw [List.getLast?_take, if_neg (by omega), List.getElem?_eq_getElem hlt, Option.some_or]
    rw [hlast, cumulative, List.getElem?_map, List.getElem?_eq_getElem hlt]
    rfl

/-- At each date there is the balance on this date. -/
theorem getElem?_cumulative {t : Timeline} (h : t.dates.Pairwise (· < ·)) {n : Nat} {date : Date}
    (hdate : t.dates[n]? = some date) : t.cumulative[n]? = some (t.balanceOn date) := by
  obtain ⟨hlt, hget⟩ := List.getElem?_eq_some_iff.1 hdate
  rw [List.pairwise_iff_getElem] at h
  -- The place right behind a date parts the dates, because they go up.
  have hupTo : ∀ other ∈ t.dates.take (n + 1), other ≤ date := by
    intro other hother
    obtain ⟨m, hm, rfl⟩ := List.mem_iff_getElem.1 hother
    rw [List.length_take] at hm
    rw [List.getElem_take, Date.le_def, ← hget]
    by_cases heq : m = n
    · subst heq
      exact Nat.le_refl _
    · exact Nat.le_of_lt (h m n (by omega) hlt (by omega))
  have hlater : ∀ other ∈ t.dates.drop (n + 1), date < other := by
    intro other hother
    obtain ⟨m, hm, rfl⟩ := List.mem_iff_getElem.1 hother
    rw [List.length_drop] at hm
    rw [List.getElem_drop, ← hget]
    exact h n (n + 1 + m) hlt (by omega) (by omega)
  exact (balanceOn_of_place hlt hupTo hlater).2 (Nat.succ_pos n)

/-- The final balance is that of the last point, or nothing. -/
theorem finalBalance_eq (t : Timeline) :
    t.finalBalance = (t.points.getLast?.map (·.2)).getD 0 := by
  rw [finalBalance]
  cases t.points.getLast? with
  | none => rfl
  | some point => rfl

/-- **The final balance of an account** is the sum of what all its entries add. -/
theorem finalBalance_of (account : Account) (entries : List Entry) :
    (Timeline.of account entries).finalBalance
      = sumOf (·.effect.amount) (entries.filter fun e => decide (e.account = account)) := by
  have hpoints : (Timeline.of account entries).points
      = runningSums 0 (orderedChanges (entries.filter (·.account = account))) := rfl
  have hall := sumOf_changes (entries.filter (·.account = account)) fun _ => true
  rw [List.filter_true, List.filter_true] at hall
  rw [finalBalance_eq, hpoints, getLast?_runningSums, zero_add, orderedChanges,
    sumOf_perm (List.mergeSort_perm _ _), hall]

/-! ## Timelines of one account -/

/-- What a timeline of an account over some entries is. -/
structure RunsOver (t : Timeline) (account : Account) (entries : List Entry) : Prop where
  account_eq : t.account = account
  /-- The balance on a day is the sum of what the entries up to this day add, and on this day too. -/
  balanceOn : ∀ day, t.balanceOn day
    = sumOf (·.effect.amount) (entries.filter fun e => decide (e.account = account ∧ e.date ≤ day))
  nothing_before : ∀ day, (∀ date ∈ t.dates, day < date) → t.balanceOn day = 0
  /-- A bisection gives a place that parts the dates, and there is the balance. -/
  bisected : ∀ day, ∀ place ≤ t.dates.length,
    (∀ date ∈ t.dates.take place, date ≤ day) → (∀ date ∈ t.dates.drop place, day < date) →
      (place = 0 → t.balanceOn day = 0)
        ∧ (0 < place → t.cumulative[place - 1]? = some (t.balanceOn day))
  increasing : t.dates.Pairwise (· < ·)
  mem_dates : ∀ day, day ∈ t.dates ↔ ∃ e ∈ entries, e.account = account ∧ e.date = day
  length_cumulative : t.cumulative.length = t.dates.length
  cumulative : ∀ (n : Nat) (date : Date), t.dates[n]? = some date →
    t.cumulative[n]? = some (t.balanceOn date)
  finalBalance : t.finalBalance
    = sumOf (·.effect.amount) (entries.filter fun e => decide (e.account = account))

/-- **A timeline is a running sum**, in whatever order the entries are listed. -/
theorem runs_of (account : Account) (entries : List Entry) :
    (Timeline.of account entries).RunsOver account entries := by
  have hincreasing := pairwise_dates_of account entries
  constructor
  case account_eq => rfl
  case balanceOn =>
    intro day
    rw [balanceOn_of, List.filter_filter]
    congr 1
    apply List.filter_congr
    intro e _
    rw [Bool.decide_and, Bool.and_comm]
  case nothing_before =>
    intro day hlater
    exact (balanceOn_of_place (Nat.zero_le _) (fun _ h => nomatch h) hlater).1 rfl
  case bisected =>
    intro day place hle hupTo hlater
    exact balanceOn_of_place hle hupTo hlater
  case increasing => exact hincreasing
  case mem_dates =>
    intro day
    exact mem_dates_of
  case length_cumulative =>
    rw [Timeline.cumulative, dates, List.length_map, List.length_map]
  case cumulative =>
    intro n date hdate
    exact getElem?_cumulative hincreasing hdate
  case finalBalance => exact finalBalance_of account entries

/-! ## Timelines of several accounts -/

/-- The accounts that timelines are built for: those that are wanted, or else those that occur. -/
def requested (entries : List Entry) (wanted : Option (List Account)) : List Account :=
  wanted.getD (entries.map (·.account))

/-- There is one timeline for each account that is wanted, or else for each that has entries. -/
theorem map_account_buildAll (entries : List Entry) (wanted : Option (List Account)) :
    (buildAll entries wanted).map (·.account)
      = Account.sorted (wanted.getD
          (Tally.keys (Tally.groups Entry.account (relevant entries wanted)))) := by
  rw [buildAll_eq, List.map_map]
  exact List.map_id _

/-- There is a timeline for each requested account, and for no other one. -/
theorem mem_accounts_buildAll {entries : List Entry} {wanted : Option (List Account)}
    {account : Account} :
    account ∈ (buildAll entries wanted).map (·.account) ↔ account ∈ requested entries wanted := by
  rw [map_account_buildAll, Account.mem_sorted]
  cases wanted with
  | some accounts => rfl
  | none =>
    -- Nothing is left out, and the keys of the groups are the accounts of the entries.
    show account ∈ Tally.keys (Tally.groups Entry.account entries) ↔ account ∈ entries.map (·.account)
    unfold Tally.groups
    rw [Tally.mem_keys_collect, List.mem_map]
    constructor
    · rintro (hnil | hmem)
      · cases hnil
      · exact hmem
    · exact .inr

/-- What the timelines of some accounts over some entries are. -/
structure ListsOver (timelines : List Timeline) (accounts : List Account) (entries : List Entry) :
    Prop where
  increasing : (timelines.map (·.account)).Pairwise (· < ·)
  mem_accounts : ∀ account, account ∈ timelines.map (·.account) ↔ account ∈ accounts
  each : ∀ t ∈ timelines, t = Timeline.of t.account entries
  /-- Under a requested account its timeline is found, and nothing under any other. -/
  found : ∀ account, timelines.find? (·.account = account)
    = if account ∈ accounts then some (Timeline.of account entries) else none

/-- **Timelines that are built in one pass are those of their accounts**: one for each requested account, in
the order of accounts, which is a strict total order by kinds and then by segments. -/
theorem lists_buildAll (entries : List Entry) (wanted : Option (List Account)) :
    ListsOver (buildAll entries wanted) (requested entries wanted) entries
    ∧ (∀ a b : Account, a < b
        ↔ a.kind.rank < b.kind.rank ∨ a.kind.rank = b.kind.rank ∧ a.segments < b.segments)
    ∧ (∀ a : Account, ¬ a < a) ∧ (∀ a b c : Account, a < b → b < c → a < c)
    ∧ ∀ a b : Account, a < b ∨ a = b ∨ b < a := by
  refine ⟨?_, fun _ _ => Account.lt_iff, Account.lt_irrefl, fun _ _ _ => Account.lt_trans,
    Account.lt_trichotomy⟩
  constructor
  case increasing =>
    rw [map_account_buildAll]
    exact Account.pairwise_sorted _
  case mem_accounts =>
    intro account
    exact mem_accounts_buildAll
  case each =>
    intro t ht
    exact eq_of_mem_buildAll ht
  case found =>
    intro account
    cases hfind : (buildAll entries wanted).find? (·.account = account) with
    | some t =>
      have ht := List.mem_of_find?_eq_some hfind
      have haccount : t.account = account := by simpa using List.find?_some hfind
      subst haccount
      have hmem : t.account ∈ requested entries wanted :=
        mem_accounts_buildAll.1 (List.mem_map.2 ⟨t, ht, rfl⟩)
      rw [if_pos hmem, ← eq_of_mem_buildAll ht]
    | none =>
      rw [if_neg]
      intro hmem
      obtain ⟨t, ht, haccount⟩ := List.mem_map.1 (mem_accounts_buildAll.2 hmem)
      exact List.find?_eq_none.1 hfind t ht (decide_eq_true haccount)

end Timeline

end Daybook
