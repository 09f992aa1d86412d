import Daybook.Account.Basic
import Daybook.Money.Currency
import Daybook.Proofs.Data.Ordering

/-!
The orders of accounts and of currencies.

Neither leaves two different ones unordered. So the accounts of a list, each once and in order, are the same
however they are listed (`Account.sorted_congr`), and so are its currencies (`Currency.sorted_congr`). Of two
different accounts one comes strictly before the other, hence sorted accounts go up strictly
(`Account.pairwise_sorted`).
-/

namespace Daybook

namespace Account

/-- An account is before another one by its kind, and within a kind by its segments. -/
theorem before_iff {a b : Account} :
    a.before b = true
      ↔ a.kind.rank < b.kind.rank ∨ a.kind.rank = b.kind.rank ∧ a.segments < b.segments := by
  unfold before
  rw [Bool.or_eq_true, Bool.and_eq_true, decide_eq_true_iff, decide_eq_true_iff, decide_eq_true_iff]

/-- The same for the order that allows equality, stated without a choice between the segments. -/
theorem le_iff {a b : Account} :
    a ≤ b ↔ a.kind.rank < b.kind.rank ∨ a.kind.rank = b.kind.rank ∧ ¬ b.segments < a.segments := by
  show ¬ b.before a = true ↔ _
  rw [before_iff, not_or, not_and]
  constructor
  · rintro ⟨hrank, hsegments⟩
    rcases Nat.lt_or_eq_of_le (Nat.le_of_not_lt hrank) with hlt | heq
    · exact .inl hlt
    · exact .inr ⟨heq, hsegments heq.symm⟩
  · rintro (hlt | ⟨heq, hsegments⟩)
    · exact ⟨Nat.lt_asymm hlt, fun heq => absurd heq (Nat.ne_of_gt hlt)⟩
    · exact ⟨Nat.not_lt_of_le heq.le, fun _ => hsegments⟩

/-- The strict order compares kinds first, and segments within a kind. -/
theorem lt_iff {a b : Account} :
    a < b ↔ a.kind.rank < b.kind.rank ∨ a.kind.rank = b.kind.rank ∧ a.segments < b.segments :=
  before_iff

theorem le_trans {a b c : Account} (hab : a ≤ b) (hbc : b ≤ c) : a ≤ c := by
  rw [le_iff] at hab hbc ⊢
  rcases hab with hab | ⟨hab, hsegments⟩
  · left
    omega
  · rcases hbc with hbc | ⟨hbc, hmore⟩
    · left
      omega
    · exact .inr ⟨hab.trans hbc, List.le_trans hsegments hmore⟩

/-- Any two accounts can be compared. -/
theorem le_total (a b : Account) : a ≤ b ∨ b ≤ a := by
  rw [le_iff, le_iff]
  by_cases hrank : a.kind.rank = b.kind.rank
  · rcases List.le_total a.segments b.segments with h | h
    · exact .inl (.inr ⟨hrank, h⟩)
    · exact .inr (.inr ⟨hrank.symm, h⟩)
  · omega

/-- Accounts of the same rank are told apart by their segments, so there are no ties. -/
theorem le_antisymm {a b : Account} (hab : a ≤ b) (hba : b ≤ a) : a = b := by
  rw [le_iff] at hab hba
  have hrank : a.kind.rank = b.kind.rank := by
    rcases hab with hlt | ⟨heq, -⟩
    · rcases hba with hgt | ⟨heq, -⟩
      · exact absurd hgt (Nat.lt_asymm hlt)
      · exact heq.symm
    · exact heq
  have hkind : a.kind = b.kind := AccountKind.rank_injective hrank
  have hsegments : a.segments = b.segments :=
    List.le_antisymm (hab.resolve_left hrank.not_lt).2 (hba.resolve_left hrank.not_gt).2
  cases a
  cases b
  cases hkind
  cases hsegments
  rfl

/-! ### The strict order -/

theorem lt_irrefl (a : Account) : ¬ a < a := by
  rw [lt_iff]
  rintro (hrank | ⟨-, hsegments⟩)
  · omega
  · exact List.lt_irrefl a.segments hsegments

/-- What is not after another account and is not the same comes before it. -/
theorem lt_of_le_of_ne {a b : Account} (hab : a ≤ b) (hne : a ≠ b) : a < b := by
  -- What is not strictly before is not before, or the same.
  by_contra hlt
  exact hne (le_antisymm hab hlt)

theorem lt_trans {a b c : Account} (hab : a < b) (hbc : b < c) : a < c := by
  rw [lt_iff] at hab hbc ⊢
  rcases hab with hab | ⟨hab, hsegments⟩
  · left
    omega
  · rcases hbc with hbc | ⟨hbc, hmore⟩
    · left
      omega
    · right
      exact ⟨hab.trans hbc, List.lt_trans hsegments hmore⟩

/-- Of two accounts one comes before the other, unless they are the same. -/
theorem lt_trichotomy (a b : Account) : a < b ∨ a = b ∨ b < a := by
  by_cases heq : a = b
  · exact .inr (.inl heq)
  · rcases le_total a b with hab | hba
    · exact .inl (lt_of_le_of_ne hab heq)
    · exact .inr (.inr (lt_of_le_of_ne hba (Ne.symm heq)))

/-! ### Sorting -/

/-- The order of accounts is one that sorts. -/
theorem sorts : Sorts fun a b : Account => decide (a ≤ b) where
  trans _ _ _ hab hbc := decide_eq_true (le_trans (of_decide_eq_true hab) (of_decide_eq_true hbc))
  total a b := by
    rw [Bool.or_eq_true, decide_eq_true_iff, decide_eq_true_iff]
    exact le_total a b

/-- Accounts in order do not depend on how they are listed. -/
theorem sort_congr {accounts others : List Account} (h : accounts.Perm others) :
    sort accounts = sort others := by
  apply sorts.mergeSort_congr h
  intro a _ b _ hab hba
  exact le_antisymm (of_decide_eq_true hab) (of_decide_eq_true hba)

/-- The sorted list depends on which accounts there are, and not on how they were listed. -/
theorem sorted_congr {accounts others : List Account} (h : accounts.Perm others) :
    sorted accounts = sorted others :=
  sort_congr (perm_eraseDups h)

theorem mem_sorted {accounts : List Account} {a : Account} : a ∈ sorted accounts ↔ a ∈ accounts := by
  unfold sorted sort
  rw [List.mem_mergeSort, List.mem_eraseDups]

/-- Accounts in order go up, if none of them is there twice. -/
theorem pairwise_sort {accounts : List Account} (h : accounts.Nodup) :
    (sort accounts).Pairwise (· < ·) :=
  sorts.pairwise_of_nodup (fun _ _ hab hne => lt_of_le_of_ne (of_decide_eq_true hab) hne) h

/-- **Sorted accounts go up**, none of them twice. -/
theorem pairwise_sorted (accounts : List Account) : (sorted accounts).Pairwise (· < ·) :=
  pairwise_sort (nodup_eraseDups accounts)

end Account

namespace Currency

/-- The order of currencies is one that sorts. -/
theorem sorts : Sorts precedes where
  trans _ _ _ hab hbc :=
    decide_eq_true (String.le_trans (of_decide_eq_true hab) (of_decide_eq_true hbc))
  total a b := by
    unfold precedes
    rw [Bool.or_eq_true, decide_eq_true_iff, decide_eq_true_iff]
    exact String.le_total a.code b.code

/-- Currencies are told apart by their codes. -/
theorem code_injective : Function.Injective code := by
  rintro ⟨_, _⟩ ⟨_, _⟩ rfl
  rfl

/-- Currencies that precede each other are the same. -/
theorem eq_of_precedes {a b : Currency} (hab : a.precedes b = true) (hba : b.precedes a = true) :
    a = b :=
  code_injective (String.le_antisymm (of_decide_eq_true hab) (of_decide_eq_true hba))

/-- Sorting currencies forgets the order in which they were listed. -/
theorem sorted_congr {currencies others : List Currency} (h : currencies.Perm others) :
    sorted currencies = sorted others :=
  sorts.mergeSort_congr (perm_eraseDups h) fun _ _ _ _ => eq_of_precedes

/-- Currencies that are in order stay where they are. -/
theorem sorted_of_pairwise {currencies : List Currency}
    (h : currencies.eraseDups.Pairwise fun a b => a.precedes b = true) :
    sorted currencies = currencies.eraseDups :=
  List.mergeSort_of_pairwise h

theorem mem_sorted {currencies : List Currency} {c : Currency} :
    c ∈ sorted currencies ↔ c ∈ currencies := by
  unfold sorted
  rw [List.mem_mergeSort, List.mem_eraseDups]

/-- **The codes of sorted currencies go up**, none of them twice. -/
theorem pairwise_sorted (currencies : List Currency) :
    (sorted currencies).Pairwise fun a b => a.code < b.code := by
  apply sorts.pairwise_of_nodup _ (nodup_eraseDups currencies)
  intro a b hab hne
  rw [← String.not_le]
  intro hba
  exact hne (eq_of_precedes hab (decide_eq_true hba))

end Currency

end Daybook
