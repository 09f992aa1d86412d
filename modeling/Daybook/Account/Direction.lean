import Daybook.Text.Quoted

/-!
The two sides of an entry.
-/

namespace Daybook

/-- The direction of a movement, written `<` for a debit and `>` for a credit. -/
inductive Direction where
  | debit
  | credit
  deriving DecidableEq

/-- A text that stands for no direction. -/
structure UnknownDirection where
  symbol : String
  deriving DecidableEq

namespace UnknownDirection

/-- The text of the message. -/
def message (e : UnknownDirection) : String :=
  "Unknown movement symbol: " ++ Text.quoted e.symbol

end UnknownDirection

namespace Direction

/-- The symbol of a direction. -/
def symbol : Direction → String
  | .debit => "<"
  | .credit => ">"

/-- The word for a direction. -/
def name : Direction → String
  | .debit => "debit"
  | .credit => "credit"

/-- The direction that a symbol stands for. -/
def ofSymbol (symbol : String) : Except UnknownDirection Direction :=
  if symbol = "<" then .ok .debit
  else if symbol = ">" then .ok .credit
  else .error ⟨symbol⟩

end Direction

end Daybook
