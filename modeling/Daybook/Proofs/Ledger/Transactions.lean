import Daybook.Ledger.Build

/-!
Transactions of a ledger.

In a ledger that was built from statements, every entry is a leg of a transaction and is grouped under the
number of its transaction. A later transaction has a greater number. So entries that are grouped together
come from one statement, and have its date (`sharesDates_build`).
-/

namespace Daybook

namespace Ledger

/-- Whether entries that are grouped together have one date. -/
def SharesDates (l : Ledger) : Prop :=
  ∀ e ∈ l.entries, ∀ other ∈ l.entries, e.groupKey = other.groupKey → e.date = other.date

/-- A leg is grouped under the number of its transaction. -/
theorem of_mem_entriesFrom {next parent : Nat} {date : Date} {description : String} {span : Span}
    {ms : List Movement} {e : Entry} (h : e ∈ entriesFrom next parent date description span ms) :
    e.groupKey = parent ∧ e.date = date := by
  induction ms generalizing next with
  | nil => cases h
  | cons m ms ih =>
    rw [entriesFrom] at h
    rcases List.mem_cons.1 h with rfl | hmem
    · exact ⟨rfl, rfl⟩
    · exact ih hmem

/-- The numbers go up. -/
theorem le_groupKey_of_mem_buildFrom {next : Nat} {ps : List (Spanned Statement)} {e : Entry}
    (h : e ∈ (buildFrom next ps).entries) : (next : Int) ≤ e.groupKey := by
  induction ps generalizing next with
  | nil => cases h
  | cons p ps ih =>
    obtain ⟨s, span⟩ := p
    cases s with
    | opening date account currency =>
      have hmore : ((next + 1 : Nat) : Int) ≤ e.groupKey := ih h
      omega
    | assertion date account amount =>
      have hmore : ((next + 1 : Nat) : Int) ≤ e.groupKey := ih h
      omega
    | transaction date description movements ne_nil =>
      rcases List.mem_append.1 h with hleg | hrest
      · have hthis := (of_mem_entriesFrom hleg).1
        omega
      · have hmore := ih hrest
        omega

/-- Entries of one group come from one statement, so they have one date. -/
theorem sharesDates_buildFrom (next : Nat) (ps : List (Spanned Statement)) :
    (buildFrom next ps).SharesDates := by
  induction ps generalizing next with
  | nil =>
    intro e he
    cases he
  | cons p ps ih =>
    obtain ⟨s, span⟩ := p
    cases s with
    | opening date account currency => exact ih (next + 1)
    | assertion date account amount => exact ih (next + 1)
    | transaction date description movements ne_nil =>
      -- A leg of this transaction is not grouped with one of a later transaction.
      have hapart : ∀ e ∈ entriesFrom (next + 1) next date description span movements,
          ∀ later ∈ (buildFrom (next + 1 + movements.length) ps).entries,
          e.groupKey ≠ later.groupKey := by
        intro e he later hlater
        have hthis := (of_mem_entriesFrom he).1
        have hmore := le_groupKey_of_mem_buildFrom hlater
        omega
      intro e he other hother hkey
      rcases List.mem_append.1 he with hleg | hrest
      · rcases List.mem_append.1 hother with hleg' | hrest'
        · rw [(of_mem_entriesFrom hleg).2, (of_mem_entriesFrom hleg').2]
        · exact absurd hkey (hapart e hleg other hrest')
      · rcases List.mem_append.1 hother with hleg' | hrest'
        · exact absurd hkey.symm (hapart other hleg' e hrest)
        · exact ih _ e hrest other hrest' hkey

/-- **In a ledger built from statements, a transaction has one date.** -/
theorem sharesDates_build (ps : List (Spanned Statement)) : (build ps).SharesDates :=
  sharesDates_buildFrom 1 ps

end Ledger

end Daybook
