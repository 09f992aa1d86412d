import Daybook.Numeric.Numeral

/-!
The text of an exact amount.

A rational number whose reduced denominator has no prime factor but two and five is written as a
plain decimal, with as few places as it needs. Any other one is written as a quotient in lowest
terms. Nothing is rounded, so different amounts have different texts.
-/

namespace Daybook.Amount

-- Powers are those of the core library, whatever else is in scope.
attribute [local instance (high)] instPowNat

/-- How often `p` divides `n`, and what is left of `n` after that. -/
def factorOut (p n : Nat) : Nat × Nat :=
  if 2 ≤ p ∧ 0 < n ∧ n % p = 0 then
    ((factorOut p (n / p)).1 + 1, (factorOut p (n / p)).2)
  else (0, n)
termination_by n
decreasing_by
  all_goals exact Nat.div_lt_self (by omega) (by omega)

/-- The number of decimal places that a fraction with this denominator needs, if any number is
enough. -/
def places? (denominator : Nat) : Option Nat :=
  let (twos, odd) := factorOut 2 denominator
  let (fives, rest) := factorOut 5 odd
  if rest = 1 then some (max twos fives) else none

/-- Digits without the zeros at their end. -/
def withoutZeros (ds : Numeral) : Numeral :=
  (ds.reverse.dropWhile (· = 0)).reverse

/-- The text of a number of units of the last of `places` decimal places. Zeros at the end are left out, and so is
the point if nothing is left behind it. -/
def pointed (places units : Nat) : List Char :=
  if places = 0 then natText units
  else
    let digits := Numeral.pad (places + 1) (Numeral.write units)
    let whole := digits.take (digits.length - places)
    let fraction := withoutZeros (digits.drop (digits.length - places))
    if fraction.isEmpty then Numeral.toChars whole
    else Numeral.toChars whole ++ '.' :: fraction.toChars

/-- The text of an amount as characters. -/
def toChars (q : Rat) : List Char :=
  match places? q.den with
  | some places =>
    (if q < 0 then ['-'] else []) ++ pointed places (q.num.natAbs * (10 ^ places / q.den))
  | none => intText q.num ++ '/' :: natText q.den

/-- The text of an amount. -/
def text (q : Rat) : String :=
  String.ofList (toChars q)

end Daybook.Amount
