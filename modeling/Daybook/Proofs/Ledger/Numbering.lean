import Mathlib.Data.List.Basic
import Daybook.Ledger.Build
import Daybook.Proofs.Source.Relocation

/-!
Numbers in a ledger.

One counter numbers all that a ledger has. How far it gets depends on the statements only (`numbers`), so
the ledger of two lists of statements is that of the first one followed by that of the second one, numbered
from there on (`build_append`). Starting the counter later moves all numbers, those of parents too, and
moving the statements moves all spans (`buildFrom_relocate`).
-/

namespace Daybook

namespace Statement

/-- Whether the statement is a transaction. -/
def isTransaction : Statement → Bool
  | .transaction _ _ _ _ => true
  | _ => false

/-- How many numbers the statement takes: one, and for a transaction one more for each leg. -/
def numbers : Statement → Nat
  | .transaction _ _ movements _ => 1 + movements.length
  | _ => 1

end Statement

/-- The entry with its own number and that of its parent raised, and its span moved. -/
def Entry.relocate (count : Int) (f : Span → Span) (e : Entry) : Entry :=
  { e with id := e.id + count, parent := e.parent.map (· + count), span := f e.span }

/-- The asserted balance with its number raised and its span moved. -/
def BalanceAssertion.relocate (count : Int) (f : Span → Span) (a : BalanceAssertion) :
    BalanceAssertion :=
  { a with id := a.id + count, span := f a.span }

/-- The opening with its number raised and its span moved. -/
def AccountOpening.relocate (count : Int) (f : Span → Span) (o : AccountOpening) :
    AccountOpening :=
  { o with id := o.id + count, span := f o.span }

namespace Ledger

/-- All that is in the first ledger, and then all that is in the second one. -/
def append (l m : Ledger) : Ledger where
  entries := l.entries ++ m.entries
  assertions := l.assertions ++ m.assertions
  openings := l.openings ++ m.openings

/-- The ledger with all numbers raised and all spans moved. -/
def relocate (count : Int) (f : Span → Span) (l : Ledger) : Ledger where
  entries := l.entries.map (Entry.relocate count f)
  assertions := l.assertions.map (BalanceAssertion.relocate count f)
  openings := l.openings.map (AccountOpening.relocate count f)

/-- How many numbers the statements take. -/
def numbers : List (Spanned Statement) → Nat
  | [] => 0
  | p :: ps => p.value.numbers + numbers ps

/-! ## One list after the other -/

/-- Statements that follow others are numbered from where the numbers of these end. -/
theorem buildFrom_append (next : Nat) (ps qs : List (Spanned Statement)) :
    buildFrom next (ps ++ qs)
      = (buildFrom next ps).append (buildFrom (next + numbers ps) qs) := by
  -- The counter stands elsewhere behind each statement, hence the induction is for every start.
  induction ps generalizing next with
  | nil => rfl
  | cons p ps ih =>
    obtain ⟨s, span⟩ := p
    rw [numbers]
    cases s with
    | opening date account currency =>
      have hmore := ih (next + 1)
      rw [Nat.add_assoc] at hmore
      simp only [List.cons_append, buildFrom, hmore]
      rfl
    | assertion date account amount =>
      have hmore := ih (next + 1)
      rw [Nat.add_assoc] at hmore
      simp only [List.cons_append, buildFrom, hmore]
      rfl
    | transaction date description movements ne_nil =>
      have hmore := ih (next + 1 + movements.length)
      rw [Nat.add_assoc next 1, Nat.add_assoc next] at hmore
      simp only [List.cons_append, buildFrom, Nat.add_assoc next 1, hmore, append,
        List.append_assoc]
      rfl

/-! ## Another start, other places -/

/-- The entries of a transaction move with its place and its numbers. -/
theorem entriesFrom_relocate (count next parent : Nat) (date : Date) (description : String)
    (f : Span → Span) (span : Span) (ms : List Movement) :
    entriesFrom (next + count) (parent + count) date description (f span) ms
      = (entriesFrom next parent date description span ms).map (Entry.relocate count f) := by
  induction ms generalizing next with
  | nil => rfl
  | cons m ms ih =>
    have hmore := ih (next + 1)
    rw [Nat.add_right_comm] at hmore
    simp only [entriesFrom, List.map_cons, hmore, Entry.relocate, Option.map_some, Int.natCast_add]

/-- Statements that are moved make the same ledger, moved, with numbers that are further on. -/
theorem buildFrom_relocate (count next : Nat) (f : Span → Span) (ps : List (Spanned Statement)) :
    buildFrom (next + count) (ps.map (Spanned.relocate f))
      = (buildFrom next ps).relocate count f := by
  induction ps generalizing next with
  | nil => rfl
  | cons p ps ih =>
    obtain ⟨s, span⟩ := p
    cases s with
    | opening date account currency =>
      have hmore := ih (next + 1)
      rw [Nat.add_right_comm] at hmore
      simp only [List.map_cons, Spanned.relocate, buildFrom] at hmore ⊢
      rw [hmore]
      simp only [relocate, List.map_cons, AccountOpening.relocate, Int.natCast_add]
    | assertion date account amount =>
      have hmore := ih (next + 1)
      rw [Nat.add_right_comm] at hmore
      simp only [List.map_cons, Spanned.relocate, buildFrom] at hmore ⊢
      rw [hmore]
      simp only [relocate, List.map_cons, BalanceAssertion.relocate, Int.natCast_add]
    | transaction date description movements ne_nil =>
      -- The transaction has a number of its own, which the legs name as that of their parent.
      have hmore := ih (next + 1 + movements.length)
      have hlegs := entriesFrom_relocate count (next + 1) next date description f span movements
      rw [Nat.add_right_comm _ movements.length, Nat.add_right_comm _ 1] at hmore
      rw [Nat.add_right_comm] at hlegs
      simp only [List.map_cons, Spanned.relocate, buildFrom] at hmore ⊢
      rw [hmore, hlegs]
      simp only [relocate, List.map_append]

/-- **Two lists of statements, one after the other.** -/
theorem build_append (f : Span → Span) (ps qs : List (Spanned Statement)) :
    build (ps ++ qs.map (Spanned.relocate f))
      = (build ps).append ((build qs).relocate (numbers ps) f) := by
  rw [build, buildFrom_append, buildFrom_relocate]
  rfl

/-! ## How many numbers are in use -/

theorem length_entriesFrom (next parent : Nat) (date : Date) (description : String) (span : Span)
    (ms : List Movement) :
    (entriesFrom next parent date description span ms).length = ms.length := by
  induction ms generalizing next with
  | nil => rfl
  | cons m ms ih => rw [entriesFrom, List.length_cons, List.length_cons, ih]

/-- One number for each opening, each asserted balance, each entry, and each transaction. -/
theorem numbers_eq (next : Nat) (ps : List (Spanned Statement)) :
    numbers ps = (buildFrom next ps).openings.length + (buildFrom next ps).assertions.length
      + (buildFrom next ps).entries.length + ps.countP (·.value.isTransaction) := by
  induction ps generalizing next with
  | nil => rfl
  | cons p ps ih =>
    obtain ⟨s, span⟩ := p
    rw [numbers]
    cases s with
    | opening date account currency =>
      have hmore := ih (next + 1)
      rw [List.countP_cons_of_neg (by exact Bool.false_ne_true)]
      simp only [buildFrom, List.length_cons, Statement.numbers]
      omega
    | assertion date account amount =>
      have hmore := ih (next + 1)
      rw [List.countP_cons_of_neg (by exact Bool.false_ne_true)]
      simp only [buildFrom, List.length_cons, Statement.numbers]
      omega
    | transaction date description movements ne_nil =>
      have hmore := ih (next + 1 + movements.length)
      rw [List.countP_cons_of_pos (by rfl)]
      simp only [buildFrom, List.length_append, length_entriesFrom, Statement.numbers]
      omega

end Ledger

end Daybook
