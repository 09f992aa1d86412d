/-!
Accumulating by key in the order of first appearance.

A tally is a list of keys with a value each. `update` changes the value of one key, which goes to the
end if it is new; `collect` runs through a list once and updates the key of each item. The lemmas say
what an update does to the keys and to the values.
-/

namespace Daybook

/-- Keys with a value each. -/
abbrev Tally (κ ν : Type) := List (κ × ν)

namespace Tally

variable {κ ν α : Type} [DecidableEq κ]

/-- The keys in order. -/
def keys (t : Tally κ ν) : List κ :=
  t.map (·.1)

/-- The value of a key. -/
def get? (t : Tally κ ν) (key : κ) : Option ν :=
  match t with
  | [] => none
  | (k, v) :: rest => if k = key then some v else get? rest key

/-- The tally with the value of one key changed. -/
def update (t : Tally κ ν) (key : κ) (f : Option ν → ν) : Tally κ ν :=
  match t with
  | [] => [(key, f none)]
  | (k, v) :: rest => if k = key then (k, f (some v)) :: rest else (k, v) :: update rest key f

/-- One pass over a list, in which every item changes the value of its key. -/
def collect (key : α → κ) (step : Option ν → α → ν) (t : Tally κ ν) (xs : List α) : Tally κ ν :=
  xs.foldl (fun t x => update t (key x) fun v => step v x) t

/-- The items of a list by key. -/
def groups (key : α → κ) (xs : List α) : Tally κ (List α) :=
  collect key (fun items x => items.getD [] ++ [x]) [] xs

/-- Updating a key changes what is found for this key and for no other. -/
theorem get?_update (t : Tally κ ν) (key other : κ) (f : Option ν → ν) :
    get? (update t key f) other = if other = key then some (f (get? t key)) else get? t other := by
  induction t with
  | nil => simp [update, get?, eq_comm]
  | cons entry t ih =>
    obtain ⟨k, v⟩ := entry
    by_cases hk : k = key
    · subst hk
      by_cases ho : k = other
      · subst ho; simp [update, get?]
      · have : other ≠ k := fun h => ho h.symm
        simp [update, get?, ho, this]
    · by_cases ho : k = other
      · subst ho; simp [update, get?, hk]
      · simp [update, get?, hk, ho, ih]

/-- A key that is updated keeps its place, and a new one comes last. -/
theorem keys_update (t : Tally κ ν) (key : κ) (f : Option ν → ν) :
    keys (update t key f) = if key ∈ keys t then keys t else keys t ++ [key] := by
  induction t with
  | nil => simp [update, keys]
  | cons entry t ih =>
    obtain ⟨k, v⟩ := entry
    simp only [keys] at ih
    by_cases hk : k = key
    · subst hk; simp [update, keys]
    · have : key ≠ k := fun h => hk h.symm
      by_cases hmem : key ∈ t.map (·.1) <;> simp_all [update, keys]

end Tally

end Daybook
