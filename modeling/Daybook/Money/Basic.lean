import Daybook.Money.Currency
import Daybook.Numeric.Amount

/-!
Amounts of money.

An amount is an exact rational number with a currency tag. Sums and differences are formed within one
currency only; the tag of a result is that of its parts.
-/

namespace Daybook

/-- An exact amount with its currency. -/
structure Money where
  amount : Rat
  currency : Currency
  deriving DecidableEq

namespace Money

/-- No money. -/
def nothing (currency : Currency) : Money := ⟨0, currency⟩

/-- The sum of two amounts of one currency. -/
def add (a b : Money) : Except CurrencyError Money :=
  if a.currency = b.currency then .ok ⟨a.amount + b.amount, a.currency⟩
  else .error (.mismatch a.currency.code b.currency.code "add")

/-- The difference of two amounts of one currency. -/
def sub (a b : Money) : Except CurrencyError Money :=
  if a.currency = b.currency then .ok ⟨a.amount - b.amount, a.currency⟩
  else .error (.mismatch a.currency.code b.currency.code "subtract")

/-- The opposite amount. -/
def neg (a : Money) : Money := ⟨-a.amount, a.currency⟩

/-- The amount without its sign. -/
def abs (a : Money) : Money := ⟨if a.amount < 0 then -a.amount else a.amount, a.currency⟩

/-- A multiple of an amount. -/
def scale (a : Money) (factor : Rat) : Money := ⟨a.amount * factor, a.currency⟩

/-- Whether there is no money. -/
def isZero (a : Money) : Bool := a.amount = 0

/-- Whether the amount is less than nothing. -/
def isNegative (a : Money) : Bool := a.amount < 0

/-- The amount and the tag. -/
def text (a : Money) : String :=
  Amount.text a.amount ++ " " ++ a.currency.code

/-- The amount as messages for developers show it. -/
def literal (a : Money) : String :=
  "Money(" ++ Text.quoted (Amount.text a.amount) ++ ", " ++ Text.quoted a.currency.code ++ ")"

end Money

end Daybook
