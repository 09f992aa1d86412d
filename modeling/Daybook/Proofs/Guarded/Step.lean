import Daybook.Ledger.Build
import Daybook.Log.Context
import Daybook.Syntax.Production
import Daybook.Validation.Outcome

/-!
Steps that may break off.

Some steps of reading and reporting have no result for certain arguments: there is no span whose ends are
in the wrong order, nothing behind the end of a list, no quotient by zero, and no conversion of more digits
than the limit allows. A `Guarded` step says so and breaks off with a `Breach`. The modules beside this one
write the stages in such steps, guard by guard, and show each of them equal to the stage that runs; what is
left here are the steps on spans and lists.
-/

namespace Daybook

/-- Why a step breaks off. -/
inductive Breach where
  /-- There is no such span. -/
  | span (e : SpanError)
  /-- A text is no decimal literal. -/
  | literal (e : NotDecimal)
  /-- A conversion between digits and a number passes the limit. -/
  | digits
  /-- A division by zero. -/
  | divisor
  /-- A place outside of a list. -/
  | index
  /-- A symbol that is no direction, a currency or a segment that breaks the rules. -/
  | token (f : TokenFault)
  /-- A transaction without legs. -/
  | noMovement
  /-- Something that is no statement. -/
  | statement (e : NotStatement)
  /-- A name that no check has. -/
  | check (e : UnknownCheck)
  /-- An account without a timeline. -/
  | timeline (account : Account)
  /-- The longest cell of a column without cells. -/
  | cell
  /-- A change of the context that names a field that there is not. -/
  | context (e : UnknownFields)
  /-- An event with a field of a name that every record has of itself. -/
  | field (name : String)

/-- A step that may break off. -/
abbrev Guarded (α : Type) := Except Breach α

namespace Guarded

variable {α β : Type}

/-- The outcome of a step of which errors are known, as an outcome of a guarded one. -/
def guard {ε : Type} (breach : ε → Breach) (x : Except ε α) : Guarded α :=
  x.mapError breach

theorem guard_of_eq {ε : Type} {breach : ε → Breach} {x : Except ε α} {a : α} (h : x = .ok a) :
    guard breach x = .ok a := by
  rw [h]
  rfl

/-- A step that does not break off is followed by the next one. -/
theorem bind_of_eq {x : Guarded α} {a : α} (h : x = .ok a) (next : α → Guarded β) :
    x >>= next = next a := by
  rw [h]
  rfl

/-- A list of steps none of which breaks off does not break off. -/
theorem mapM_eq_of_mem {f : α → Guarded β} {g : α → β} {as : List α}
    (h : ∀ a ∈ as, f a = .ok (g a)) : as.mapM f = .ok (as.map g) := by
  induction as with
  | nil => rfl
  | cons a as ih =>
    obtain ⟨ha, has⟩ := List.forall_mem_cons.1 h
    rw [List.mapM_cons, bind_of_eq ha, bind_of_eq (ih has)]
    rfl

/-- Steps that all succeed succeed one after the other. -/
theorem mapM_eq {f : α → Guarded β} {g : α → β} (h : ∀ a, f a = .ok (g a)) (as : List α) :
    as.mapM f = .ok (as.map g) :=
  mapM_eq_of_mem fun a _ => h a

/-! ## Spans -/

/-- The span with the given ends. -/
def span (start stop : Int) : Guarded Span :=
  guard .span (Span.of? start stop)

/-- The smallest span that covers both. -/
def union (a b : Span) : Guarded Span :=
  span (min a.start b.start) (max a.stop b.stop)

/-- The smallest span that covers all of a list. -/
def covering : List Span → Guarded Span
  | [] => .error (.span .nothingToCover)
  | first :: others =>
    span (others.foldl (fun n s => min n (s.start : Int)) first.start)
      (others.foldl (fun n s => max n (s.stop : Int)) first.stop)

/-- The ends of a span are in order. -/
theorem span_eq (s : Span) : span s.start s.stop = .ok s := by
  have hle := s.start_le_stop
  have hends : (0 : Int) ≤ s.start ∧ (s.start : Int) ≤ s.stop := by omega
  unfold span Span.of?
  rw [dif_pos hends]
  rfl

theorem min_natCast (m n : Nat) : min (m : Int) n = (min m n : Nat) := by
  omega

theorem max_natCast (m n : Nat) : max (m : Int) n = (max m n : Nat) := by
  omega

/-- The union of two spans does not end before it begins. -/
theorem union_eq (a b : Span) : union a b = .ok (a.union b) := by
  rw [← span_eq (a.union b), union, min_natCast, max_natCast]
  rfl

/-- There is a span that covers some spans, if there is a first one. -/
theorem covering_cons (first : Span) (others : List Span) :
    covering (first :: others) = .ok (Span.covering first others) := by
  rw [← span_eq (Span.covering first others), covering]
  -- Both ends are folds over the same list, so the induction is on it, with the first span free.
  congr 1
  · induction others generalizing first with
    | nil => rfl
    | cons s others ih =>
      rw [List.foldl_cons, min_natCast]
      exact ih (first.union s)
  · induction others generalizing first with
    | nil => rfl
    | cons s others ih =>
      rw [List.foldl_cons, max_natCast]
      exact ih (first.union s)

/-! ## Lists -/

/-- The item at a place. -/
def item (as : List α) (n : Nat) : Guarded α :=
  match as[n]? with
  | some a => .ok a
  | none => .error .index

/-- The last item. -/
def last (as : List α) : Guarded α :=
  match as.getLast? with
  | some a => .ok a
  | none => .error .index

/-- A list with a first member has a last one. -/
theorem last_cons (a : α) (as : List α) :
    last (a :: as) = .ok ((a :: as).getLast (List.cons_ne_nil a as)) := by
  rw [last, List.getLast?_eq_some_getLast (List.cons_ne_nil a as)]

end Guarded

end Daybook
