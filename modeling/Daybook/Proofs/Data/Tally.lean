import Mathlib.Algebra.BigOperators.Group.List.Basic
import Mathlib.Data.Rat.Lemmas
import Daybook.Data.Tally

/-!
What one pass over a list collects.

Each key of a tally has what the items with this key make of its value, whatever items of other keys stand
between them (`get?_collect`); so the group of a key holds the items with this key, in their order
(`get?_groups`). A sum over a tally grows by what an item counts (`sumOf_collect`), in whichever key it is
kept; hence sums over the values of a tally are sums over the items that went into it.
-/

namespace Daybook

section

-- The sum of no numbers is the literal zero, whatever else is in scope.
attribute [local instance (high)] Zero.ofOfNat0

/-- The sum of what the members of a list count. -/
def sumOf {α : Type} (f : α → Rat) (xs : List α) : Rat :=
  (xs.map f).sum

end

section Sum

variable {α β : Type} {f : α → Rat}

@[simp] theorem sumOf_nil : sumOf f [] = 0 := rfl

@[simp] theorem sumOf_cons (x : α) (xs : List α) : sumOf f (x :: xs) = f x + sumOf f xs := rfl

/-- The sum over two lists is the sum over the first and that over the second. -/
theorem sumOf_append (xs ys : List α) : sumOf f (xs ++ ys) = sumOf f xs + sumOf f ys := by
  induction xs with
  | nil => rw [List.nil_append, sumOf_nil, zero_add]
  | cons x xs ih => rw [List.cons_append, sumOf_cons, sumOf_cons, ih, add_assoc]

theorem sumOf_map (g : β → α) (xs : List β) : sumOf f (xs.map g) = sumOf (fun x => f (g x)) xs := by
  rw [sumOf, List.map_map]
  rfl

/-- Functions that agree on a list have the same sum over it. -/
theorem sumOf_congr {g : α → Rat} {xs : List α} (h : ∀ x ∈ xs, f x = g x) :
    sumOf f xs = sumOf g xs := by
  rw [sumOf, List.map_congr_left h]
  rfl

/-- The order of the members does not matter. -/
theorem sumOf_perm {xs ys : List α} (h : xs.Perm ys) : sumOf f xs = sumOf f ys := by
  induction h with
  | nil => rfl
  | cons x _ ih => rw [sumOf_cons, sumOf_cons, ih]
  | swap x y xs => simp only [sumOf_cons, add_left_comm]
  | trans _ _ ih ih' => rw [ih, ih']

/-- Members that are left out count nothing. -/
theorem sumOf_filter (p : α → Bool) (xs : List α) :
    sumOf f (xs.filter p) = sumOf (fun x => if p x = true then f x else 0) xs := by
  induction xs with
  | nil => rfl
  | cons x xs ih =>
    rw [sumOf_cons]
    by_cases hx : p x = true
    · rw [List.filter_cons_of_pos hx, sumOf_cons, if_pos hx, ih]
    · rw [List.filter_cons_of_neg hx, if_neg hx, zero_add, ih]

/-- Sums are added term by term. -/
theorem sumOf_add (f g : α → Rat) (xs : List α) :
    sumOf (fun x => f x + g x) xs = sumOf f xs + sumOf g xs := by
  induction xs with
  | nil => rw [sumOf_nil, sumOf_nil, sumOf_nil, add_zero]
  | cons x xs ih => rw [sumOf_cons, sumOf_cons, sumOf_cons, ih, add_add_add_comm]

theorem sumOf_neg (f : α → Rat) (xs : List α) : sumOf (fun x => -f x) xs = -sumOf f xs := by
  induction xs with
  | nil => rfl
  | cons x xs ih => rw [sumOf_cons, sumOf_cons, ih, neg_add]

/-- A factor may be taken out of a sum. -/
theorem sumOf_mul (k : Rat) (f : α → Rat) (xs : List α) :
    sumOf (fun x => k * f x) xs = k * sumOf f xs := by
  induction xs with
  | nil => rw [sumOf_nil, sumOf_nil, mul_zero]
  | cons x xs ih => rw [sumOf_cons, sumOf_cons, ih, mul_add]

theorem sumOf_eq_zero {xs : List α} (h : ∀ x ∈ xs, f x = 0) : sumOf f xs = 0 := by
  induction xs with
  | nil => rfl
  | cons x xs ih =>
    obtain ⟨hx, hxs⟩ := List.forall_mem_cons.1 h
    rw [sumOf_cons, hx, ih hxs, zero_add]

/-- Two sums may be formed in either order. -/
theorem sumOf_comm (f : α → β → Rat) (xs : List α) (ys : List β) :
    sumOf (fun x => sumOf (f x) ys) xs = sumOf (fun y => sumOf (fun x => f x y) xs) ys := by
  induction xs with
  | nil => rw [sumOf_nil, sumOf_eq_zero fun _ _ => sumOf_nil]
  | cons x xs ih =>
    rw [sumOf_cons, ih, ← sumOf_add]
    rfl

end Sum

namespace Tally

variable {κ ν α : Type} [DecidableEq κ] {key : α → κ} {step : Option ν → α → ν}

/-! ## The keys -/

/-- The keys after an update are those before it and the one that is updated. -/
theorem mem_keys_update {t : Tally κ ν} {k other : κ} {f : Option ν → ν} :
    other ∈ keys (update t k f) ↔ other ∈ keys t ∨ other = k := by
  rw [keys_update]
  by_cases hk : k ∈ keys t
  · rw [if_pos hk]
    refine ⟨.inl, ?_⟩
    rintro (hmem | rfl)
    · exact hmem
    · exact hk
  · rw [if_neg hk, List.mem_append, List.mem_singleton]

/-- No update lists a key twice. -/
theorem nodup_keys_update {t : Tally κ ν} (h : (keys t).Nodup) (k : κ) (f : Option ν → ν) :
    (keys (update t k f)).Nodup := by
  rw [keys_update]
  by_cases hk : k ∈ keys t
  · rw [if_pos hk]
    exact h
  · rw [if_neg hk]
    refine List.nodup_append.2 ⟨h, List.pairwise_singleton _ k, ?_⟩
    intro other hother last hlast heq
    rw [heq, List.mem_singleton.1 hlast] at hother
    exact hk hother

/-- The keys are those of the tally before and those of the items. -/
theorem mem_keys_collect {t : Tally κ ν} {xs : List α} {k : κ} :
    k ∈ keys (collect key step t xs) ↔ k ∈ keys t ∨ ∃ x ∈ xs, key x = k := by
  induction xs generalizing t with
  | nil => simp [collect]
  | cons x xs ih =>
    have hstep : collect key step t (x :: xs)
        = collect key step (update t (key x) fun v => step v x) xs := rfl
    rw [hstep, ih, mem_keys_update, or_assoc, List.exists_mem_cons_iff, eq_comm (a := k)]

/-- No key is there twice. -/
theorem nodup_keys_collect {t : Tally κ ν} (h : (keys t).Nodup) (xs : List α) :
    (keys (collect key step t xs)).Nodup := by
  induction xs generalizing t with
  | nil => exact h
  | cons x xs ih => exact ih (nodup_keys_update h (key x) _)

/-- Where no key is there twice, every value is that of its key. -/
theorem get?_eq_some {t : Tally κ ν} (h : (keys t).Nodup) {k : κ} {v : ν} (hmem : (k, v) ∈ t) :
    get? t k = some v := by
  induction t with
  | nil => cases hmem
  | cons entry t ih =>
    obtain ⟨first, w⟩ := entry
    obtain ⟨hfirst, hnodup⟩ := List.nodup_cons.1 h
    rcases List.mem_cons.1 hmem with heq | hmem
    · obtain ⟨rfl, rfl⟩ := Prod.mk.inj heq
      rw [get?, if_pos rfl]
    · have hne : first ≠ k := by
        rintro rfl
        exact hfirst (List.mem_map.2 ⟨_, hmem, rfl⟩)
      rw [get?, if_neg hne, ih hnodup hmem]

/-! ## The values -/

/-- **The value of a key** is what the items with this key make of it. -/
theorem get?_collect (t : Tally κ ν) (xs : List α) (k : κ) :
    get? (collect key step t xs) k
      = (xs.filter fun x => key x = k).foldl (fun v x => some (step v x)) (get? t k) := by
  induction xs generalizing t with
  | nil => rfl
  | cons x xs ih =>
    have hstep : collect key step t (x :: xs)
        = collect key step (update t (key x) fun v => step v x) xs := rfl
    rw [hstep, ih, get?_update]
    by_cases hx : key x = k
    · have hfilter : (x :: xs).filter (fun x => key x = k) = x :: xs.filter fun x => key x = k :=
        List.filter_cons_of_pos (decide_eq_true hx)
      rw [hfilter, List.foldl_cons, if_pos hx.symm, hx]
    · have hfilter : (x :: xs).filter (fun x => key x = k) = xs.filter fun x => key x = k :=
        List.filter_cons_of_neg (by simpa using hx)
      rw [hfilter, if_neg (Ne.symm hx)]

/-- Adding items one after the other adds the list of them. -/
theorem foldl_append_singleton (items xs : List α) :
    xs.foldl (fun v x => some (v.getD [] ++ [x])) (some items) = some (items ++ xs) := by
  induction xs generalizing items with
  | nil => rw [List.foldl_nil, List.append_nil]
  | cons x xs ih => rw [List.foldl_cons, Option.getD_some, ih, List.append_assoc, List.singleton_append]

/-- **The group of a key** holds the items with this key, in their order. -/
theorem getD_get?_groups (xs : List α) (k : κ) :
    (get? (groups key xs) k).getD [] = xs.filter fun x => key x = k := by
  rw [groups, get?_collect]
  cases xs.filter fun x => key x = k with
  | nil => rfl
  | cons x ys =>
    rw [List.foldl_cons]
    exact congrArg (Option.getD · []) (foldl_append_singleton [x] ys)

/-- A group is not empty, and it is all that has its key. -/
theorem eq_filter_of_mem_groups {xs : List α} {k : κ} {items : List α}
    (h : (k, items) ∈ groups key xs) : items = xs.filter fun x => key x = k := by
  have hget : get? (groups key xs) k = some items :=
    get?_eq_some (nodup_keys_collect (t := []) List.Pairwise.nil xs) h
  rw [← getD_get?_groups, hget, Option.getD_some]

/-- A group is there because of its first item, so it is not empty. -/
theorem ne_nil_of_mem_groups {xs : List α} {k : κ} {items : List α}
    (h : (k, items) ∈ groups key xs) : items ≠ [] := by
  have hkey : k ∈ keys (groups key xs) := List.mem_map.2 ⟨_, h, rfl⟩
  obtain ⟨x, hx, hxk⟩ : ∃ x ∈ xs, key x = k := by
    rcases mem_keys_collect.1 hkey with hnil | hmem
    · cases hnil
    · exact hmem
  rw [eq_filter_of_mem_groups h]
  exact List.ne_nil_of_mem (List.mem_filter.2 ⟨hx, decide_eq_true hxk⟩)

/-! ## Sums over a tally -/

section Sums

variable {g : κ × ν → Rat}

/-- If an update raises what a key counts for by some amount, it raises the sum by the same. -/
theorem sumOf_update (t : Tally κ ν) (k : κ) (f : Option ν → ν) (d : Rat)
    (h : ∀ v, g (k, f v) = (v.elim 0 fun w => g (k, w)) + d) :
    sumOf g (update t k f) = sumOf g t + d := by
  induction t with
  | nil => rw [update, sumOf_cons, h none, sumOf_nil, add_zero]; rfl
  | cons entry t ih =>
    obtain ⟨first, v⟩ := entry
    rw [update]
    by_cases hk : first = k
    · subst hk
      rw [if_pos rfl, sumOf_cons, sumOf_cons, h (some v), Option.elim_some, add_right_comm]
    · rw [if_neg hk, sumOf_cons, sumOf_cons, ih, add_assoc]

/-- **A sum over a tally grows by what each item counts.** -/
theorem sumOf_collect (count : α → Rat) (t : Tally κ ν) (xs : List α)
    (h : ∀ x v, g (key x, step v x) = (v.elim 0 fun w => g (key x, w)) + count x) :
    sumOf g (collect key step t xs) = sumOf g t + sumOf count xs := by
  induction xs generalizing t with
  | nil => rw [sumOf_nil, add_zero]; rfl
  | cons x xs ih =>
    have hstep : collect key step t (x :: xs)
        = collect key step (update t (key x) fun v => step v x) xs := rfl
    rw [hstep, ih, sumOf_update t (key x) _ (count x) (h x), sumOf_cons, add_assoc]

/-- **Summing by groups is summing.** Every item is in one group and counted there. -/
theorem sumOf_groups (key : α → κ) (count : α → Rat) (xs : List α) :
    sumOf (fun entry => sumOf count entry.2) (groups key xs) = sumOf count xs := by
  rw [groups, sumOf_collect count, sumOf_nil, zero_add]
  intro x v
  cases v with
  | none => rw [Option.getD_none, List.nil_append, sumOf_cons, sumOf_nil, Option.elim_none, add_comm]
  | some items =>
    rw [Option.getD_some, sumOf_append, sumOf_cons, sumOf_nil, Option.elim_some, add_zero]

end Sums

end Tally

end Daybook
