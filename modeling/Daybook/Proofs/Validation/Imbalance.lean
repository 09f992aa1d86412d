import Daybook.Proofs.Ledger.Provenance
import Daybook.Proofs.Validation.Excess

/-!
What is found wrong with transactions as they were written.

A ledger keeps the legs of all transactions in one list, and the check of transactions puts them into groups
again. For a ledger that was built from statements these groups are the legs of the transactions, one group
a transaction and in their order (`groups_transaction`); so the check goes through the statements
(`transactionFindings_buildFrom`). It finds those wrong of which the two sides differ, and tells by how much
(`transactionFindings_build`).
-/

namespace Daybook

namespace Statement

/-- The legs of a statement, which only a transaction has. -/
def legs : Statement → List Movement
  | .transaction _ _ movements _ => movements
  | _ => []

/-- The sum of the legs on one side. -/
def sideTotal (s : Statement) (direction : Direction) : Rat :=
  sumOf (·.amount.amount) (s.legs.filter (·.direction = direction))

/-- What the credits are more than the debits. -/
def excess (s : Statement) : Rat := s.sideTotal .credit - s.sideTotal .debit

/-- Whether the two sides differ. -/
def isLopsided (s : Statement) : Bool := decide (s.sideTotal .credit ≠ s.sideTotal .debit)

/-- A statement is lopsided if it has an excess. -/
theorem isLopsided_iff {s : Statement} : s.isLopsided = true ↔ s.excess ≠ 0 := by
  rw [isLopsided, decide_eq_true_iff, excess, sub_ne_zero]

/-- What has no legs is not lopsided. -/
theorem isLopsided_of_legs {s : Statement} (h : s.legs = []) : ¬ s.isLopsided = true := by
  rw [isLopsided_iff, not_not, excess, sideTotal, sideTotal, h, List.filter_nil, List.filter_nil,
    sub_self]

end Statement

namespace Check

open Ledger

/-! ## The legs of a transaction -/

/-- The sum over one side of some entries is that over their movements. -/
theorem grossSum_movements (direction : Direction) (entries : List Entry) :
    grossSum (entries.filter fun e => decide (e.direction = direction))
      = sumOf (·.amount.amount)
          ((entries.map Entry.movement).filter (·.direction = direction)) := by
  rw [List.filter_map, sumOf_map]
  rfl

/-- The currencies of some entries are those of their movements. -/
theorem currenciesOf_movements (entries : List Entry) :
    currenciesOf entries
      = Currency.sorted ((entries.map Entry.movement).map (·.amount.currency)) := by
  rw [List.map_map]
  rfl

/-- The entries of a transaction are in excess by what its credits are more than its debits. -/
theorem netSum_entriesFrom {next parent : Nat} {date : Date} {description : String} {span : Span}
    {ms : List Movement} (h : ms ≠ []) :
    netSum (entriesFrom next parent date description span ms)
      = (Statement.transaction date description ms h).excess := by
  rw [netSum_eq_sides, grossSum_movements, grossSum_movements, map_movement_entriesFrom]
  rfl

/-! ## Statements -/

/-- The finding that the two sides of a statement differ. -/
def imbalance (p : Spanned Statement) : Finding :=
  .transaction p.span p.value.excess (Currency.sorted (p.value.legs.map (·.amount.currency)))

/-- The group of a transaction is found wrong just if its statement is lopsided. -/
theorem groupFinding?_entriesFrom (next : Nat) (date : Date) (description : String) (span : Span)
    {ms : List Movement} (h : ms ≠ []) :
    groupFinding? (entriesFrom (next + 1) next date description span ms)
      = if (Statement.transaction date description ms h).isLopsided = true
        then some (imbalance ⟨.transaction date description ms h, span⟩) else none := by
  have hne : entriesFrom (next + 1) next date description span ms ≠ [] := by
    rw [← List.length_pos_iff, length_entriesFrom]
    exact List.length_pos_iff.2 h
  rw [groupFinding?_of_span hne fun e he => (eq_of_mem_entriesFrom he).2.2, netSum_entriesFrom h,
    currenciesOf_movements, map_movement_entriesFrom]
  simp only [Statement.isLopsided_iff, ne_eq, ite_not]
  rfl

/-- **The check of transactions goes through the statements**: it finds those wrong that are lopsided. -/
theorem transactionFindings_buildFrom (next : Nat) (ps : List (Spanned Statement)) :
    transactionFindings (buildFrom next ps) = (ps.filter (·.value.isLopsided)).map imbalance := by
  induction ps generalizing next with
  | nil => rfl
  | cons p ps ih =>
    obtain ⟨s, span⟩ := p
    cases s with
    | opening | assertion =>
      rw [List.filter_cons_of_neg (by exact Statement.isLopsided_of_legs rfl)]
      exact ih (next + 1)
    | transaction date description ms h =>
      have hmore := ih (next + 1 + ms.length)
      have hthis := groupFinding?_entriesFrom next date description span h
      rw [transactionFindings_eq] at hmore ⊢
      rw [groups_transaction, List.map_cons]
      by_cases hlopsided : (Statement.transaction date description ms h).isLopsided = true
      · rw [if_pos hlopsided] at hthis
        rw [List.filterMap_cons_some hthis, hmore, List.filter_cons_of_pos (by exact hlopsided),
          List.map_cons]
      · rw [if_neg hlopsided] at hthis
        rw [List.filterMap_cons_none hthis, hmore, List.filter_cons_of_neg (by exact hlopsided)]

/-- What a finding says about the two sides of a statement. -/
structure TellsImbalance (f : Finding) (p : Spanned Statement) : Prop where
  span : f.span? = some p.span
  found : f.foundAmount? = some (p.value.sideTotal .credit - p.value.sideTotal .debit)
  ne_zero : p.value.sideTotal .credit - p.value.sideTotal .debit ≠ 0

/-- The finding about a lopsided statement tells its excess and where it stands. -/
theorem tellsImbalance_imbalance {p : Spanned Statement} (h : p.value.isLopsided = true) :
    TellsImbalance (imbalance p) p where
  span := rfl
  found := by
    rw [Finding.foundAmount?, imbalance, Finding.found, Amount.text, String.toList_ofList,
      Amount.read?_toChars]
    rfl
  ne_zero := Statement.isLopsided_iff.1 h

/-- **A transaction that is lopsided is found wrong, and nothing else**: for each statement of which the sums
of credits and of debits differ there is one finding, in the order of the statements, which is about the
span of the statement and tells the difference. -/
theorem transactionFindings_build (ps : List (Spanned Statement)) :
    List.Forall₂ TellsImbalance (transactionFindings (build ps))
      (ps.filter fun p => decide (p.value.sideTotal .credit ≠ p.value.sideTotal .debit)) := by
  rw [build, transactionFindings_buildFrom, List.forall₂_map_left_iff]
  apply List.forall₂_same.2
  intro p hp
  exact tellsImbalance_imbalance (List.mem_filter.1 hp).2

end Check

end Daybook
