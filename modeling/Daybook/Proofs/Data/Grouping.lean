import Mathlib.Data.List.Pairwise
import Daybook.Proofs.Data.Ordering
import Daybook.Proofs.Data.Tally

/-!
Groups, and the order in which the items come.

The first item is in the first group, together with all items of its key, and the others are grouped behind
them (`groups_cons`). So the groups hold all items, each once (`perm_flatMap_groups`), and come in the order of
their first items (`sublist_firsts_groups`). How the items are listed decides the order of the keys and of the
items within a group, and nothing else: two tallies with the same values hold the same entries
(`perm_of_get?_eq`), and so do the groups of two lists with the same items (`perm_filterMap_groups`).
-/

namespace Daybook.Tally

variable {κ ν α β : Type} [DecidableEq κ] {key : α → κ} {step : Option ν → α → ν}

/-! ## Group by group -/

/-- The first group takes the items with its key, whatever stands between them, and the other items go into
the groups behind it. -/
theorem collect_cons (k : κ) (items : List α) (t : Tally κ (List α)) (xs : List α) :
    collect key (fun items x => items.getD [] ++ [x]) ((k, items) :: t) xs
      = (k, items ++ xs.filter fun x => key x = k)
        :: collect key (fun items x => items.getD [] ++ [x]) t (xs.filter fun x => key x ≠ k) := by
  induction xs generalizing items t with
  | nil => rw [List.filter_nil, List.filter_nil, List.append_nil]; rfl
  | cons x xs ih =>
    by_cases hx : key x = k
    · have hstep : collect key (fun items x => items.getD [] ++ [x]) ((k, items) :: t) (x :: xs)
          = collect key (fun items x => items.getD [] ++ [x]) ((k, items ++ [x]) :: t) xs := by
        simp only [collect, List.foldl_cons, update, if_pos hx.symm, Option.getD_some]
      have hsame : (x :: xs).filter (fun x => key x = k) = x :: xs.filter fun x => key x = k :=
        List.filter_cons_of_pos (decide_eq_true hx)
      have hother : (x :: xs).filter (fun x => key x ≠ k) = xs.filter fun x => key x ≠ k :=
        List.filter_cons_of_neg (by simpa using hx)
      rw [hstep, ih, hsame, hother, List.append_assoc, List.singleton_append]
    · have hstep : collect key (fun items x => items.getD [] ++ [x]) ((k, items) :: t) (x :: xs)
          = collect key (fun items x => items.getD [] ++ [x])
              ((k, items) :: update t (key x) fun v => v.getD [] ++ [x]) xs := by
        simp only [collect, List.foldl_cons, update, if_neg (Ne.symm hx)]
      have hsame : (x :: xs).filter (fun x => key x = k) = xs.filter fun x => key x = k :=
        List.filter_cons_of_neg (by simpa using hx)
      have hother : (x :: xs).filter (fun x => key x ≠ k) = x :: xs.filter fun x => key x ≠ k :=
        List.filter_cons_of_pos (by simpa using hx)
      rw [hstep, ih, hsame, hother]
      rfl

/-- **The group of the first item** is the first one, and the items with other keys are grouped behind it. -/
theorem groups_cons (x : α) (xs : List α) :
    groups key (x :: xs)
      = (key x, x :: xs.filter fun y => key y = key x)
        :: groups key (xs.filter fun y => key y ≠ key x) :=
  collect_cons (key x) [x] [] xs

/-- **A run of items with one key, which no later item has, is the first group.** -/
theorem groups_append {k : κ} {xs ys : List α} (hne : xs ≠ []) (hxs : ∀ x ∈ xs, key x = k)
    (hys : ∀ y ∈ ys, key y ≠ k) : groups key (xs ++ ys) = (k, xs) :: groups key ys := by
  obtain ⟨x, xs, rfl⟩ := List.exists_cons_of_ne_nil hne
  obtain ⟨rfl, hmore⟩ := List.forall_mem_cons.1 hxs
  have hsame : (xs ++ ys).filter (fun y => decide (key y = key x)) = xs := by
    rw [List.filter_append, List.filter_eq_self.2 fun y hy => decide_eq_true (hmore y hy),
      List.filter_eq_nil_iff.2 fun y hy => by simpa using hys y hy, List.append_nil]
  have hother : (xs ++ ys).filter (fun y => decide (key y ≠ key x)) = ys := by
    rw [List.filter_append, List.filter_eq_nil_iff.2 fun y hy => by simpa using hmore y hy,
      List.filter_eq_self.2 fun y hy => decide_eq_true (hys y hy), List.nil_append]
  rw [List.cons_append, groups_cons, hsame, hother]

/-- What holds of no items, and of items if it does of those with another key than the first, holds of all
lists of items. -/
theorem groups_induction (key : α → κ) {motive : List α → Prop} (nil : motive [])
    (cons : ∀ x xs, motive (xs.filter fun y => key y ≠ key x) → motive (x :: xs)) :
    ∀ xs, motive xs
  | [] => nil
  | x :: xs => cons x xs (groups_induction key nil cons _)
termination_by xs => xs.length
decreasing_by exact Nat.lt_succ_of_le (List.length_filter_le _ xs)

/-- The groups together hold the items, each as often as it is there. -/
theorem perm_flatMap_groups (key : α → κ) (xs : List α) :
    ((groups key xs).flatMap (·.2)).Perm xs := by
  induction xs using groups_induction key with
  | nil => exact List.Perm.refl _
  | cons x xs ih =>
    rw [groups_cons, List.flatMap_cons, List.cons_append]
    refine List.Perm.cons x ((ih.append_left _).trans ?_)
    have hsplit := List.filter_append_perm (fun y => decide (key y = key x)) xs
    simpa using hsplit

/-- The groups come in the order of their first items. -/
theorem sublist_firsts_groups (key : α → κ) (xs : List α) :
    ((groups key xs).map (·.2.head?)).Sublist (xs.map some) := by
  induction xs using groups_induction key with
  | nil => exact List.Sublist.refl _
  | cons x xs ih =>
    rw [groups_cons, List.map_cons, List.map_cons, List.head?_cons]
    exact (ih.trans (List.filter_sublist.map some)).cons_cons (some x)

/-! ## Items in another order -/

/-- Where no key is there twice, a value is that of its key, and only that. -/
theorem mem_iff_get? {t : Tally κ ν} (h : (keys t).Nodup) {k : κ} {v : ν} :
    (k, v) ∈ t ↔ get? t k = some v := by
  refine ⟨get?_eq_some h, ?_⟩
  intro hget
  induction t with
  | nil => cases hget
  | cons entry t ih =>
    obtain ⟨first, w⟩ := entry
    rw [get?] at hget
    by_cases hk : first = k
    · rw [if_pos hk] at hget
      rw [hk, Option.some.inj hget]
      exact List.mem_cons_self
    · rw [if_neg hk] at hget
      exact List.mem_cons_of_mem _ (ih (List.nodup_cons.1 h).2 hget)

/-- **Tallies with the same values hold the same entries.** -/
theorem perm_of_get?_eq {t u : Tally κ ν} (ht : (keys t).Nodup) (hu : (keys u).Nodup)
    (h : ∀ k, get? t k = get? u k) : t.Perm u := by
  rw [List.perm_ext_iff_of_nodup ht.of_map hu.of_map]
  rintro ⟨k, v⟩
  rw [mem_iff_get? ht, mem_iff_get? hu, h]

/-- The keys do not depend on the order of the items. -/
theorem perm_keys_collect {t u : Tally κ ν} (ht : (keys t).Nodup) (hu : (keys u).Nodup)
    (hkeys : (keys t).Perm (keys u)) {xs ys : List α} (h : xs.Perm ys) :
    (keys (collect key step t xs)).Perm (keys (collect key step u ys)) := by
  rw [List.perm_ext_iff_of_nodup (nodup_keys_collect ht xs) (nodup_keys_collect hu ys)]
  intro k
  rw [mem_keys_collect, mem_keys_collect, hkeys.mem_iff]
  simp only [h.mem_iff]

/-- Reordering what is grouped reorders the keys, but makes none appear or vanish. -/
theorem perm_keys_groups (key : α → κ) {xs ys : List α} (h : xs.Perm ys) :
    (keys (groups key xs)).Perm (keys (groups key ys)) :=
  perm_keys_collect (t := []) (u := []) List.nodup_nil List.nodup_nil (List.Perm.refl _) h

/-- Under each of its keys a grouping has the items with that key. -/
theorem groups_eq_map (key : α → κ) (xs : List α) :
    groups key xs = (keys (groups key xs)).map fun k => (k, xs.filter fun x => key x = k) := by
  have hentry : ∀ entry ∈ groups key xs,
      (entry.1, xs.filter fun x => key x = entry.1) = entry := by
    rintro ⟨k, items⟩ hmem
    rw [eq_filter_of_mem_groups hmem]
  calc groups key xs = (groups key xs).map id := (List.map_id _).symm
    _ = (groups key xs).map fun entry => (entry.1, xs.filter fun x => key x = entry.1) :=
        List.map_congr_left fun entry hmem => (hentry entry hmem).symm
    _ = (keys (groups key xs)).map fun k => (k, xs.filter fun x => key x = k) := by
        rw [keys, List.map_map]
        rfl

/-- **What is found in the groups does not depend on the order of the items**, if what is found in one group
does not. -/
theorem perm_filterMap_groups {f : κ × List α → Option β}
    (hf : ∀ k {items others : List α}, items.Perm others → f (k, items) = f (k, others))
    {xs ys : List α} (h : xs.Perm ys) :
    ((groups key xs).filterMap f).Perm ((groups key ys).filterMap f) := by
  have hkeys := perm_keys_groups key h
  rw [groups_eq_map key xs, groups_eq_map key ys, List.filterMap_map, List.filterMap_map]
  refine (hkeys.filterMap _).trans (List.Perm.of_eq (List.filterMap_congr ?_))
  intro k _
  exact hf k (h.filter _)

end Daybook.Tally
