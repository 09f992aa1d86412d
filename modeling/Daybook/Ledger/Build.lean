import Daybook.Ledger.Basic
import Daybook.Data.Value

/-!
From statements to a ledger.

One counter numbers everything in the order of the source, from one on: an opening and an asserted
balance take one number each; a transaction takes one number for itself and one for each of its legs.
-/

namespace Daybook

namespace Ledger

/-- The legs of a transaction as entries, numbered from `next` on. -/
def entriesFrom (next : Nat) (parent : Nat) (date : Date) (description : String) (span : Span) :
    List Movement → List Entry
  | [] => []
  | m :: ms =>
    { id := next, date, description, direction := m.direction, account := m.account,
      amount := m.amount, span, parent := some (parent : Int) }
      :: entriesFrom (next + 1) parent date description span ms

/-- The ledger of statements that are numbered from `next` on. -/
def buildFrom (next : Nat) : List (Spanned Statement) → Ledger
  | [] => {}
  | ⟨.opening date account currency, span⟩ :: rest =>
    let l := buildFrom (next + 1) rest
    { l with openings := ⟨next, account, date, currency, span⟩ :: l.openings }
  | ⟨.assertion date account amount, span⟩ :: rest =>
    let l := buildFrom (next + 1) rest
    { l with assertions := ⟨next, account, date, amount, span⟩ :: l.assertions }
  | ⟨.transaction date description movements _, span⟩ :: rest =>
    let l := buildFrom (next + 1 + movements.length) rest
    { l with
      entries := entriesFrom (next + 1) next date description span movements ++ l.entries }

/-- The ledger of a list of statements. -/
def build (statements : List (Spanned Statement)) : Ledger :=
  buildFrom 1 statements

end Ledger

/-- Something that stands in a list of statements without being one. -/
structure NotStatement where
  kindName : String
  deriving DecidableEq

namespace NotStatement

/-- The text of the message. -/
def message (e : NotStatement) : String :=
  "Unknown operation type: " ++ e.kindName

end NotStatement

/-- The ledger of a list in which values may stand for statements; the first such value is refused. -/
def Ledger.buildOrRefuse (items : List (Except Value (Spanned Statement))) :
    Except NotStatement Ledger := do
  let statements ← items.mapM fun
    | .ok s => .ok s
    | .error v => .error ⟨v.kindName⟩
  return build statements

end Daybook
