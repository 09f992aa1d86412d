import Daybook.Money.Exact

/-!
Expressions over amounts of money.

An expression is built from amounts by sums, differences, opposites, absolute values and multiples; a
factor is a whole or an exact number and may stand on either side. It is evaluated by the operators for
money, from the inside out and from left to right, so that of several clashes of currencies the first
one in that order is reported.
-/

namespace Daybook.Money

/-- An exact factor. -/
inductive Factor where
  | integer (n : Int)
  | rational (q : Rat)
  deriving DecidableEq

/-- The factor as an operand. -/
def Factor.operand : Factor → Operand
  | .integer n => .value (.integer n)
  | .rational q => .value (.rational q)

/-- The operators between two amounts. -/
inductive Joint where
  | add
  | sub
  deriving DecidableEq

/-- What the operator makes of two operands. -/
def Joint.apply : Joint → Operand → Operand → Except MoneyError Money
  | .add => Operand.add
  | .sub => Operand.sub

/-- The operators on one amount. -/
inductive Single where
  | neg
  | abs
  /-- A multiple with its factor behind the amount. -/
  | times (factor : Factor)
  /-- A multiple with its factor in front of the amount. -/
  | timesOf (factor : Factor)
  deriving DecidableEq

/-- What the operator makes of an operand. -/
def Single.apply : Single → Operand → Except MoneyError Money
  | .neg, a => a.neg
  | .abs, a => a.abs
  | .times factor, a => a.mul factor.operand
  | .timesOf factor, a => factor.operand.mul a

/-- An expression over amounts. -/
inductive Expression where
  | amount (m : Money)
  | joint (op : Joint) (left right : Expression)
  | single (op : Single) (e : Expression)
  deriving DecidableEq

/-- The amount that an expression stands for. -/
def Expression.eval : Expression → Except MoneyError Money
  | .amount m => .ok m
  | .joint op left right => do
    let a ← left.eval
    let b ← right.eval
    op.apply (.money a) (.money b)
  | .single op e => do
    let a ← e.eval
    op.apply (.money a)

end Daybook.Money
