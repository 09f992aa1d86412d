import Daybook.Data.Record
import Daybook.Ledger.Basic
import Daybook.Source.Notice

/-!
What a check finds wrong with a ledger.

A finding keeps the amounts that differ and the currencies that were added up together; its wording
is a function of them.
-/

namespace Daybook

/-- A failure of a check. -/
inductive Finding where
  /-- All credits and all debits differ by the given excess of credits. -/
  | totals (excess : Rat) (currencies : List Currency)
  /-- So do those of one transaction. -/
  | transaction (span : Span) (excess : Rat) (currencies : List Currency)
  /-- The balance is another one than asserted. -/
  | balance (assertion : BalanceAssertion) (actual : Rat) (currencies : List Currency)
  deriving DecidableEq

namespace Finding

/-- A sentence on the currencies that were added up, if there are several. -/
def currencyNote (currencies : List Currency) : String :=
  if currencies.length < 2 then ""
  else " Amounts in " ++ String.intercalate ", " (currencies.map (·.code))
    ++ " were summed together without conversion."

/-- The text of the message. -/
def message : Finding → String
  | .totals .. => "Budget does not balance"
  | .transaction .. => "Transaction does not balance"
  | .balance .. => "Balance statement does not match"

/-- The explanation. -/
def details : Finding → String
  | .totals _ currencies =>
    "In a double-entry accounting system, all credits and debits should balance in the end."
      ++ currencyNote currencies
  | .transaction _ _ currencies =>
    "Inside a transaction, all debits and credits must balance in the end."
      ++ currencyNote currencies
  | .balance assertion _ currencies =>
    "The balance of " ++ assertion.account.path ++ " including every transaction up to "
      ++ assertion.date.iso ++ " differs from the asserted amount." ++ currencyNote currencies

/-- The statement that the finding is about, unless it is about the whole ledger. -/
def span? : Finding → Option Span
  | .totals .. => none
  | .transaction span _ _ => some span
  | .balance assertion _ _ => some assertion.span

/-- The amount that was found. -/
def found : Finding → String
  | .totals excess _ => Amount.text excess
  | .transaction _ excess _ => Amount.text excess
  | .balance assertion actual _ =>
    Amount.text actual ++ " " ++ assertion.amount.currency.code

/-- The amount that should have been found. -/
def expected : Finding → String
  | .totals .. => "0"
  | .transaction .. => "0"
  | .balance assertion _ _ => assertion.amount.text

/-- The finding as a notice. -/
def notice (f : Finding) : Notice :=
  { message := f.message, span := f.span?, details := some f.details, found := some f.found,
    expected := some f.expected }

/-- The finding as messages for developers show it. -/
def literal (f : Finding) : String :=
  recordLiteral "Trace"
    [ ("message", Text.quoted f.message), ("details", Text.quoted f.details),
      ("span", Span.literal? f.span?), ("found", Text.quoted f.found),
      ("expected", Text.quoted f.expected) ]

end Finding

end Daybook
