import Daybook.Data.Fault

/-!
Currency tags.

A tag consists of three to five capital letters of ASCII. Tags are labels: nothing is ever converted
from one to another.
-/

namespace Daybook

/-- Why an operation on tagged amounts is refused. -/
inductive CurrencyError where
  /-- The text is not a currency tag. -/
  | invalid (code : String)
  /-- The amounts have different tags. -/
  | mismatch (left right operation : String)
  deriving DecidableEq

namespace CurrencyError

/-- The error as reports name it. -/
def fault : CurrencyError → Fault
  | .invalid code => .invalidCurrency (.text code)
  | .mismatch left right operation => .currencyMismatch (.text left) (.text right) (.text operation)

end CurrencyError

/-- Whether a text is a currency tag. -/
def isCurrencyCode (cs : List Char) : Bool :=
  3 ≤ cs.length && cs.length ≤ 5 && cs.all Char.isUpper

/-- A currency tag. -/
structure Currency where
  code : String
  isCode : isCurrencyCode code.toList = true
  deriving DecidableEq

namespace Currency

/-- The tag that a text is. -/
def of? (code : String) : Except CurrencyError Currency :=
  if h : isCurrencyCode code.toList = true then .ok ⟨code, h⟩ else .error (.invalid code)

/-- The tag that a value is; only text can be one. -/
def ofValue : Value → Except CurrencyError Currency
  | .text code => of? code
  | v => .error (.invalid v.plain)

/-- The tag as messages for developers show it. -/
def literal (c : Currency) : String :=
  "Currency(" ++ Text.quoted c.code ++ ")"

/-- Tags are sorted by their letters. -/
def precedes (a b : Currency) : Bool :=
  decide (a.code ≤ b.code)

/-- The tags of a list, each once, sorted. -/
def sorted (cs : List Currency) : List Currency :=
  cs.eraseDups.mergeSort precedes

end Currency

end Daybook
