import Daybook.Proofs.Data.Grouping
import Daybook.Proofs.Ledger.Reconstruction
import Daybook.Proofs.Syntax.Acceptance
import Daybook.Validation.Check

/-!
Which entries are grouped together.

An entry is grouped under the number of its parent, or under its own number if it has no parent. Every entry is
in one group, in its place (`isPartition_groups`), and the legs of a transaction are in one group. But numbers of
parents and numbers of entries are not kept apart: an entry without a parent is grouped with the legs that name
its number as that of their parent (`together_iff`). A ledger built from statements has no such entries, since
every entry of it has a parent (`groupsByParent_build`); one that is made by hand may have them, and then its
groups are not its transactions (`groupsByParent_iff`, `handmadeLedger`).
-/

namespace Daybook.Ledger

open Parsed (sampleDay cash brl)

/-- Whether two entries are in one group. -/
def Together (l : Ledger) (e other : Entry) : Prop :=
  ∃ group ∈ l.groups, e ∈ group.2 ∧ other ∈ group.2

/-- Whether two entries are legs of one transaction. -/
def SharesParent (e other : Entry) : Prop :=
  ∃ parent, e.parent = some parent ∧ other.parent = some parent

/-- Whether an entry without a parent has the number that another one names as that of its parent. -/
def StandsForParent (e other : Entry) : Prop :=
  e.parent = none ∧ other.parent = some e.id

/-- Whether the groups are the transactions: two entries are in one group if they have one parent, and only
then. -/
def GroupsByParent (l : Ledger) : Prop :=
  ∀ e ∈ l.entries, ∀ other ∈ l.entries, e ≠ other → (Together l e other ↔ SharesParent e other)

/-- What the groups are as parts of the ledger. -/
structure IsPartition (l : Ledger) : Prop where
  /-- Every entry is in one group, and in no other one. -/
  once : ∀ e ∈ l.entries, ∃! group, group ∈ l.groups ∧ e ∈ group.2
  /-- The groups have no other members, and each entry as often as it is there. -/
  complete : (l.groups.flatMap (·.2)).Perm l.entries
  /-- Within a group the entries are in the order of the ledger. -/
  order : ∀ group ∈ l.groups, group.2.Sublist l.entries
  /-- So are the first entries of the groups. -/
  firsts : (l.groups.map (·.2.head?)).Sublist (l.entries.map some)

variable {l : Ledger} {e other : Entry}

/-! ## Groups and their keys -/

/-- The members of a group are the entries with its key. -/
theorem mem_of_mem_groups {group : Int × List Entry} (h : group ∈ l.groups) :
    e ∈ group.2 ↔ e ∈ l.entries ∧ e.groupKey = group.1 := by
  rw [Tally.eq_filter_of_mem_groups h, List.mem_filter, decide_eq_true_iff]

/-- Every entry has a group, under its key. -/
theorem exists_mem_groups (h : e ∈ l.entries) :
    (e.groupKey, l.entries.filter fun x => x.groupKey = e.groupKey) ∈ l.groups := by
  rw [groups, Tally.groups_eq_map, List.mem_map]
  exact ⟨e.groupKey, Tally.mem_keys_collect.2 (.inr ⟨e, h, rfl⟩), rfl⟩

/-- **The groups part the ledger**, in its order. -/
theorem isPartition_groups (l : Ledger) : IsPartition l where
  once e he := by
    have hmem : e ∈ l.entries.filter fun x => x.groupKey = e.groupKey :=
      List.mem_filter.2 ⟨he, decide_eq_true rfl⟩
    refine ⟨_, ⟨exists_mem_groups he, hmem⟩, ?_⟩
    -- A group is known by its key, which is that of each member.
    rintro ⟨key, entries⟩ ⟨hgroup, hin⟩
    obtain rfl : e.groupKey = key := ((mem_of_mem_groups hgroup).1 hin).2
    rw [Tally.eq_filter_of_mem_groups hgroup]
  complete := Tally.perm_flatMap_groups _ _
  order group hgroup := by
    rw [Tally.eq_filter_of_mem_groups hgroup]
    exact List.filter_sublist
  firsts := Tally.sublist_firsts_groups _ _

/-- Entries stand together if they are grouped under one key. -/
theorem together_iff_groupKey_eq (he : e ∈ l.entries) (hother : other ∈ l.entries) :
    Together l e other ↔ e.groupKey = other.groupKey := by
  constructor
  · rintro ⟨group, hgroup, hin, hin'⟩
    rw [((mem_of_mem_groups hgroup).1 hin).2, ((mem_of_mem_groups hgroup).1 hin').2]
  · intro hkey
    have hgroup := exists_mem_groups he
    exact ⟨_, hgroup, (mem_of_mem_groups hgroup).2 ⟨he, rfl⟩,
      (mem_of_mem_groups hgroup).2 ⟨hother, hkey.symm⟩⟩

/-! ## Distinct numbers -/

/-- Where identifiers are not shared, they determine their entries. -/
theorem eq_of_id_eq (h : (l.entries.map (·.id)).Nodup) (he : e ∈ l.entries)
    (hother : other ∈ l.entries) (hid : e.id = other.id) : e = other :=
  List.inj_on_of_nodup_map h he hother hid

/-- Different entries are in one group if they have one parent, or if one of them is taken for the parent of
the other one. -/
theorem together_iff (h : (l.entries.map (·.id)).Nodup) (he : e ∈ l.entries)
    (hother : other ∈ l.entries) (hne : e ≠ other) :
    Together l e other
      ↔ SharesParent e other ∨ StandsForParent e other ∨ StandsForParent other e := by
  have hid : e.id ≠ other.id := fun hid => hne (eq_of_id_eq h he hother hid)
  rw [together_iff_groupKey_eq he hother, Entry.groupKey, Entry.groupKey, SharesParent,
    StandsForParent, StandsForParent]
  cases e.parent with
  | none =>
    cases other.parent with
    | none => simp [hid]
    | some parent => simp [eq_comm]
  | some parent =>
    cases other.parent with
    | none => simp
    | some parent' => simp [eq_comm]

/-- An entry without a parent is a group of its own if it is not taken for the parent of another one. -/
theorem exists_group_singleton_iff (h : (l.entries.map (·.id)).Nodup) (he : e ∈ l.entries)
    (hparent : e.parent = none) :
    (∃ group ∈ l.groups, group.2 = [e]) ↔ ∀ other ∈ l.entries, ¬ StandsForParent e other := by
  constructor
  · rintro ⟨group, hgroup, hmembers⟩ other hother hstands
    have hne : e ≠ other := by
      rintro rfl
      rw [StandsForParent, hparent] at hstands
      cases hstands.2
    have hin : e ∈ group.2 := by rw [hmembers]; exact List.mem_singleton_self e
    have hkey := (together_iff_groupKey_eq he hother).1
      ((together_iff h he hother hne).2 (.inr (.inl hstands)))
    have hin' : other ∈ group.2 := by
      rw [mem_of_mem_groups hgroup, ← hkey]
      exact ⟨hother, ((mem_of_mem_groups hgroup).1 hin).2⟩
    rw [hmembers, List.mem_singleton] at hin'
    exact hne hin'.symm
  · intro hstands
    have hgroup := exists_mem_groups he
    refine ⟨_, hgroup, List.perm_singleton.1 ?_⟩
    rw [List.perm_ext_iff_of_nodup (h.of_map.filter _) (List.nodup_singleton e)]
    intro other
    rw [mem_of_mem_groups hgroup, List.mem_singleton]
    constructor
    · rintro ⟨hother, hkey⟩
      by_contra hne
      have htogether := (together_iff_groupKey_eq he hother).2 hkey.symm
      rcases (together_iff h he hother (Ne.symm hne)).1 htogether with hshares | htaken | htaken
      · obtain ⟨parent, hsome, -⟩ := hshares
        rw [hparent] at hsome
        cases hsome
      · exact hstands other hother htaken
      · rw [StandsForParent, hparent] at htaken
        cases htaken.2
    · rintro rfl
      exact ⟨he, rfl⟩

/-- **The groups of a ledger in which entries have distinct numbers.** They part the ledger in its order. Two
different entries are in one group if they name one parent, or if one of them has no parent and the number that
the other one names. So the groups are the transactions, and entries without a parent are groups of their own,
just where no such entry has the number that another one names as that of its parent. -/
theorem groupsByParent_iff (h : (l.entries.map (·.id)).Nodup) :
    IsPartition l
    ∧ (∀ e ∈ l.entries, ∀ other ∈ l.entries, e ≠ other → (Together l e other
        ↔ SharesParent e other ∨ StandsForParent e other ∨ StandsForParent other e))
    ∧ (GroupsByParent l ↔ ∀ e ∈ l.entries, ∀ other ∈ l.entries, ¬ StandsForParent e other)
    ∧ ∀ e ∈ l.entries, e.parent = none → ((∃ group ∈ l.groups, group.2 = [e])
        ↔ ∀ other ∈ l.entries, ¬ StandsForParent e other) := by
  refine ⟨isPartition_groups l, fun e he other hother => together_iff h he hother, ?_,
    fun e he => exists_group_singleton_iff h he⟩
  constructor
  · intro hgroups e he other hother hstands
    have hne : e ≠ other := by
      rintro rfl
      cases hstands.1.symm.trans hstands.2
    have htogether := (together_iff h he hother hne).2 (.inr (.inl hstands))
    obtain ⟨parent, hsome, -⟩ := (hgroups e he other hother hne).1 htogether
    cases hstands.1.symm.trans hsome
  · intro hstands e he other hother hne
    rw [together_iff h he hother hne]
    constructor
    · rintro (hshares | htaken | htaken)
      · exact hshares
      · exact absurd htaken (hstands e he other hother)
      · exact absurd htaken (hstands other hother e he)
    · exact .inl

/-! ## Built from statements, and made by hand -/

/-- **In a ledger built from statements the groups are the transactions.** -/
theorem groupsByParent_build (ps : List (Spanned Statement)) : GroupsByParent (build ps) := by
  intro e he other hother _
  have hparent := parent_of_mem_buildFrom he
  have hparent' := parent_of_mem_buildFrom hother
  rw [together_iff_groupKey_eq he hother, SharesParent, hparent, hparent']
  constructor
  · intro hkey
    exact ⟨_, rfl, congrArg some hkey.symm⟩
  · rintro ⟨_, hkey, hkey'⟩
    exact Option.some.inj (hkey.trans hkey'.symm)

/-- An entry of ten units of cash. -/
def cashEntry (id : Int) (parent : Option Int) (direction : Direction) : Entry :=
  ⟨id, sampleDay, "", direction, cash, ⟨10, brl⟩, .point 0, parent⟩

/-- Debits and credits made by hand. The two with the numbers 5 and 3 do not belong together, but the first one
has the number that the second one names as that of its parent. -/
def handmadeLedger : Ledger where
  entries :=
    [ cashEntry 1 none .debit, cashEntry 2 (some 9) .debit, cashEntry 5 none .debit,
      cashEntry 3 (some 5) .credit, cashEntry 4 (some 9) .credit ]

/-- In the ledger made by hand, an entry without a parent stands together with one whose parent has its number, so
entries are not grouped by parents alone. -/
theorem groupsByParent_iff_handmade :
    (handmadeLedger.entries.map (·.id)).Nodup
    ∧ IsPartition handmadeLedger
    ∧ Together handmadeLedger (cashEntry 2 (some 9) .debit) (cashEntry 4 (some 9) .credit)
    ∧ Together handmadeLedger (cashEntry 5 none .debit) (cashEntry 3 (some 5) .credit)
    ∧ ¬ GroupsByParent handmadeLedger
    ∧ ∃ group ∈ handmadeLedger.groups, group.2 = [cashEntry 1 none .debit] := by
  have hnodup : (handmadeLedger.entries.map (·.id)).Nodup := by decide
  obtain ⟨hpartition, htogether, hgroups, hlone⟩ := groupsByParent_iff hnodup
  have hstands : StandsForParent (cashEntry 5 none .debit) (cashEntry 3 (some 5) .credit) :=
    ⟨rfl, rfl⟩
  refine ⟨hnodup, hpartition, ?_, ?_, ?_, ?_⟩
  · exact (htogether _ (by decide) _ (by decide) (by decide)).2 (.inl ⟨9, rfl, rfl⟩)
  · exact (htogether _ (by decide) _ (by decide) (by decide)).2 (.inr (.inl hstands))
  · rw [hgroups]
    intro hnone
    exact hnone _ (by decide) _ (by decide) hstands
  · rw [hlone _ (by decide) rfl]
    intro other hother hother'
    have hnamed : ∀ other ∈ handmadeLedger.entries, other.parent ≠ some 1 := by decide
    exact hnamed other hother hother'.2

/-- Entries of which one has no parent are one group, in which the credit hides that neither of them balances. -/
theorem not_groupsByParent_handmade :
    (handmadeLedger.entries.map (·.id)).Nodup
    ∧ (5, [cashEntry 5 none .debit, cashEntry 3 (some 5) .credit]) ∈ handmadeLedger.groups
    ∧ ¬ SharesParent (cashEntry 5 none .debit) (cashEntry 3 (some 5) .credit)
    ∧ ¬ GroupsByParent handmadeLedger
    ∧ Check.groupFinding? [cashEntry 5 none .debit, cashEntry 3 (some 5) .credit] = none
    ∧ Check.groupFinding? [cashEntry 5 none .debit] ≠ none
    ∧ Check.groupFinding? [cashEntry 3 (some 5) .credit] ≠ none := by
  have hgroup : (5, [cashEntry 5 none .debit, cashEntry 3 (some 5) .credit])
      ∈ handmadeLedger.groups := by decide
  have hapart : ¬ SharesParent (cashEntry 5 none .debit) (cashEntry 3 (some 5) .credit) := by
    rintro ⟨parent, hnone, -⟩
    cases hnone
  refine ⟨by decide, hgroup, hapart, ?_, by decide +kernel, by decide +kernel, by decide +kernel⟩
  intro hgroups
  have htogether : Together handmadeLedger (cashEntry 5 none .debit)
      (cashEntry 3 (some 5) .credit) := ⟨_, hgroup, by decide, by decide⟩
  exact hapart ((hgroups _ (by decide) _ (by decide) (by decide)).1 htogether)

end Daybook.Ledger
