import Mathlib.Data.List.Sort

/-!
Lists in order.

What sorting makes of a list depends on its members only, and not on how they were listed before, if no two
different members precede each other (`Sorts.mergeSort_congr`). Leaving out what is there twice keeps
the members, so the same holds of the distinct members of a list (`perm_eraseDups`).
-/

namespace Daybook

variable {α β : Type}

/-- Whether lists can be sorted by the relation. -/
structure Sorts (le : α → α → Bool) : Prop where
  trans : ∀ a b c, le a b = true → le b c = true → le a c = true
  total : ∀ a b, (le a b || le b a) = true

namespace Sorts

/-- Lists can be sorted by a key. -/
theorem of_key [LinearOrder β] (key : α → β) : Sorts fun a b => decide (key a ≤ key b) where
  trans := by
    intro a b c hab hbc
    exact decide_eq_true (le_trans (of_decide_eq_true hab) (of_decide_eq_true hbc))
  total := by
    intro a b
    rw [Bool.or_eq_true, decide_eq_true_iff, decide_eq_true_iff]
    exact le_total (key a) (key b)

variable {le : α → α → Bool} {xs ys : List α}

/-- A list that was sorted is in order, each member with all that come after it. -/
theorem pairwise (h : Sorts le) (xs : List α) :
    (xs.mergeSort le).Pairwise fun a b => le a b = true :=
  List.pairwise_mergeSort h.trans h.total xs

/-- Where no member is there twice, sorted members go up strictly. -/
theorem pairwise_of_nodup {lt : α → α → Prop} (h : Sorts le)
    (hlt : ∀ a b, le a b = true → a ≠ b → lt a b) (hnodup : xs.Nodup) :
    (xs.mergeSort le).Pairwise lt := by
  have hne : (xs.mergeSort le).Nodup := (List.mergeSort_perm xs le).nodup_iff.2 hnodup
  apply ((h.pairwise xs).and hne).imp
  rintro a b ⟨hab, hdiffer⟩
  exact hlt a b hab hdiffer

/-- **Sorting forgets how the members were listed.** -/
theorem mergeSort_congr (h : Sorts le) (hperm : xs.Perm ys)
    (hanti : ∀ a ∈ xs, ∀ b ∈ xs, le a b = true → le b a = true → a = b) :
    xs.mergeSort le = ys.mergeSort le := by
  have hxs := List.mergeSort_perm xs le
  have hys := List.mergeSort_perm ys le
  apply List.Perm.eq_of_pairwise _ (h.pairwise xs) (h.pairwise ys)
    (hxs.trans (hperm.trans hys.symm))
  intro a b ha hb hab hba
  apply hanti a (hxs.mem_iff.1 ha) b _ hab hba
  exact hperm.mem_iff.2 (hys.mem_iff.1 hb)

/-- A list in which the keys go up is what its members are sorted to. -/
theorem mergeSort_eq_of_key [LinearOrder β] {key : α → β} (hperm : xs.Perm ys)
    (hsorted : ys.Pairwise fun a b => key a < key b) :
    xs.mergeSort (fun a b => decide (key a ≤ key b)) = ys := by
  have hys : ys.mergeSort (fun a b => decide (key a ≤ key b)) = ys :=
    List.mergeSort_of_pairwise (hsorted.imp fun hab => decide_eq_true hab.le)
  have hnodup : (xs.map key).Nodup := by
    rw [(hperm.map key).nodup_iff]
    exact List.Pairwise.map key (fun _ _ hab => hab.ne) hsorted
  rw [(of_key key).mergeSort_congr hperm, hys]
  intro a ha b hb hab hba
  have hkey : key a = key b := le_antisymm (of_decide_eq_true hab) (of_decide_eq_true hba)
  exact List.inj_on_of_nodup_map hnodup ha hb hkey

end Sorts

/-! ## Distinct members -/

section Distinct

variable [DecidableEq α]

theorem nodup_eraseDups (xs : List α) : xs.eraseDups.Nodup := by
  induction hn : xs.length using Nat.strongRecOn generalizing xs with
  | _ n ih =>
    cases xs with
    | nil => exact List.nodup_nil
    | cons x xs =>
      rw [List.eraseDups_cons]
      refine List.nodup_cons.2 ⟨?_, ?_⟩
      · intro hmem
        have hne := (List.mem_filter.1 (List.mem_eraseDups.1 hmem)).2
        simp at hne
      · have hle := List.length_filter_le (fun b => !b == x) xs
        rw [List.length_cons] at hn
        exact ih _ (by omega) _ rfl

/-- The distinct members of a list do not depend on how it is listed. -/
theorem perm_eraseDups {xs ys : List α} (h : xs.Perm ys) : xs.eraseDups.Perm ys.eraseDups := by
  rw [List.perm_ext_iff_of_nodup (nodup_eraseDups xs) (nodup_eraseDups ys)]
  intro a
  rw [List.mem_eraseDups, List.mem_eraseDups]
  exact h.mem_iff

end Distinct

end Daybook
