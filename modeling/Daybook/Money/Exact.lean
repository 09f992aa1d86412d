import Daybook.Money.Basic
import Daybook.Numeric.Decimal
import Daybook.Numeric.Ratio

/-!
Amounts from outside.

An amount may be given as an exact number, an integer or a text; a number with a binary fraction is
refused, because it is rarely the amount that was meant. `Money.Operand` says which operations have
money on one side and a plain value on the other.
-/

namespace Daybook

/-- Why a value from outside is no amount. -/
inductive AmountError where
  /-- Values of this kind are no amounts. -/
  | kind (name : String)
  /-- The text is no number. -/
  | text (reason : Ratio.Refusal)
  deriving DecidableEq

namespace AmountError

/-- The text of the message; there is none for texts. -/
def message? : AmountError → Option String
  | .kind name => some ("amount must be Fraction, int or str, not " ++ name)
  | .text _ => none

end AmountError

/-- The exact value of a text: that of a decimal literal of any length, or else of a number in
lenient notation. -/
def Amount.ofText (s : String) : Except Ratio.Refusal Rat :=
  match Decimal.ofString? s with
  | some d => .ok d.value
  | none => Ratio.parse s

/-- The exact amount that a value is. -/
def Amount.ofValue : Value → Except AmountError Rat
  | .rational q => .ok q
  | .integer n => .ok n
  | .text s => (Amount.ofText s).mapError .text
  | v => .error (.kind v.kindName)

/-- Why a value is no rational number. -/
inductive NumberError where
  /-- Values of this kind are no numbers. -/
  | kind
  /-- The text is no number. -/
  | text (reason : Ratio.Refusal)
  /-- It is infinite. -/
  | infinite
  /-- It is the number that is none. -/
  | undefined
  deriving DecidableEq

/-- The rational number that a value is: truth values count as one and zero, binary fractions have
their exact value, and text is read in lenient notation. Other values are refused. -/
def Amount.ofNumber : Value → Except NumberError Rat
  | .rational q => .ok q
  | .integer n => .ok n
  | .bool b => .ok (if b then 1 else 0)
  | .real x => match Binary.ofFloat? x with
    | some b => .ok b.value
    | none => .error (if x == x then .infinite else .undefined)
  | .text s => (Ratio.parse s).mapError .text
  | _ => .error .kind

/-- Why an amount of money cannot be made or used. -/
inductive MoneyError where
  | amount (e : AmountError)
  | currency (e : CurrencyError)
  /-- The currency is given by a value of another kind than text. -/
  | currencyKind (name : String)
  /-- There is no such operation between values of these kinds. -/
  | unsupported
  deriving DecidableEq

namespace MoneyError

/-- The text of the message, if there is one. -/
def message? : MoneyError → Option String
  | .amount e => e.message?
  | .currency e => some e.fault.message
  | .currencyKind name =>
    some ("currency must be Currency or str, got <class '" ++ name ++ "'>")
  | .unsupported => none

end MoneyError

namespace Money

/-- The currency of an amount from outside. -/
def currencyOfValue : Value → Except MoneyError Currency
  | .text code => (Currency.of? code).mapError .currency
  | v => .error (.currencyKind v.kindName)

/-- The amount of money with the given parts. The amount is looked at first. -/
def ofValues (amount currency : Value) : Except MoneyError Money := do
  let amount ← (Amount.ofValue amount).mapError .amount
  let currency ← currencyOfValue currency
  return ⟨amount, currency⟩

/-- What may stand on a side of an operator. -/
inductive Operand where
  | money (m : Money)
  | value (v : Value)

namespace Operand

/-- The factor that an operand is: only whole and exact numbers are factors. -/
def factor? : Operand → Option Rat
  | .value (.integer n) => some n
  | .value (.rational q) => some q
  | _ => none

/-- The sum; both sides have to be money. -/
def add : Operand → Operand → Except MoneyError Money
  | .money a, .money b => (a.add b).mapError .currency
  | _, _ => .error .unsupported

/-- The difference; both sides have to be money. -/
def sub : Operand → Operand → Except MoneyError Money
  | .money a, .money b => (a.sub b).mapError .currency
  | _, _ => .error .unsupported

/-- The product of money and a factor, on either side. -/
def mul : Operand → Operand → Except MoneyError Money
  | .money a, b => match b.factor? with
    | some q => .ok (a.scale q)
    | none => .error .unsupported
  | a, .money b => match a.factor? with
    | some q => .ok (b.scale q)
    | none => .error .unsupported
  | _, _ => .error .unsupported

/-- The opposite of money. -/
def neg : Operand → Except MoneyError Money
  | .money a => .ok a.neg
  | _ => .error .unsupported

/-- Money without its sign. -/
def abs : Operand → Except MoneyError Money
  | .money a => .ok a.abs
  | _ => .error .unsupported

/-- Whether both sides are the same money; a plain value equals no money. -/
def same : Operand → Operand → Bool
  | .money a, .money b => a = b
  | _, _ => false

end Operand

end Money

end Daybook
