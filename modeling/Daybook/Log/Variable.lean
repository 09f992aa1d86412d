import Daybook.Log.Context

/-!
The variable that holds the context.

Whoever sets the variable gets a receipt, with which the value from before is put back. A receipt can
be used once, and only with the variable that it is from.
-/

namespace Daybook

/-- A variable with what is known of the receipts that it has given out. -/
structure LogVariable where
  value : LogContext
  /-- How many receipts there are; they are numbered from zero on. -/
  issued : Nat
  /-- The numbers of those that have been used. -/
  used : List Nat
  used_lt : ∀ n ∈ used, n < issued

namespace LogVariable

/-- A receipt, with the value from before. -/
structure Receipt where
  number : Nat
  old : LogContext
  deriving DecidableEq

/-- Why a receipt is refused. -/
inductive ReceiptError where
  | used
  | foreign
  deriving DecidableEq

/-- A variable that has not been set yet. -/
def holding (c : LogContext) : LogVariable := ⟨c, 0, [], by simp⟩

/-- Sets the variable. -/
def set (v : LogVariable) (c : LogContext) : Receipt × LogVariable :=
  (⟨v.issued, v.value⟩,
    ⟨c, v.issued + 1, v.used, fun n hn => Nat.lt_succ_of_lt (v.used_lt n hn)⟩)

/-- Puts the value from before back. -/
def reset (v : LogVariable) (r : Receipt) : Except ReceiptError LogVariable :=
  if r.number ∈ v.used then .error .used
  else if h : r.number < v.issued then
    .ok ⟨r.old, v.issued, r.number :: v.used, List.forall_mem_cons.2 ⟨h, v.used_lt⟩⟩
  else .error .foreign

end LogVariable

end Daybook
