import Daybook.Account.Basic
import Daybook.Calendar.Date
import Daybook.Money.Basic

/-!
Statements of the ledger language.

A source consists of three sorts of statements: an account is opened, a balance is asserted, or a
transaction moves amounts between accounts. Amounts are kept as written, without a sign that depends
on the account.
-/

namespace Daybook

/-- One leg of a transaction. -/
structure Movement where
  direction : Direction
  amount : Money
  account : Account
  deriving DecidableEq

/-- A statement. A transaction has at least one leg. -/
inductive Statement where
  | opening (date : Date) (account : Account) (currency : Currency)
  | assertion (date : Date) (account : Account) (amount : Money)
  | transaction (date : Date) (description : String) (movements : List Movement)
      (ne_nil : movements ≠ [])
  deriving DecidableEq

namespace Statement

/-- The message about a transaction without legs. -/
def noMovementMessage : String := "A transaction needs at least one movement"

/-- A transaction with the given legs, unless there is none. -/
def transaction? (date : Date) (description : String) (movements : List Movement) :
    Option Statement :=
  if h : movements = [] then none else some (.transaction date description movements h)

end Statement

/-! ## Statements as text -/

/-- A leg as written. -/
def Movement.line (m : Movement) : String :=
  m.direction.symbol ++ " " ++ m.amount.text ++ " " ++ m.account.path

/-- A statement as written: one line, and one more for each leg of a transaction. -/
def Statement.text : Statement → String
  | .opening date account currency => date.iso ++ " open " ++ account.path ++ " " ++ currency.code
  | .assertion date account amount => date.iso ++ " balance " ++ account.path ++ " " ++ amount.text
  | .transaction date description movements _ =>
    date.iso ++ " transaction \"" ++ description ++ "\""
      ++ String.join (movements.map fun m => "\n" ++ m.line)

end Daybook
