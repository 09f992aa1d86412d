import Daybook.Numeric.Binary
import Daybook.Numeric.Numeral

/-!
The shortest decimal text of a binary fraction.

A positive double is `m · 2^q` with `m < 2^53`. It stands for every real number that rounds to it, an
interval around it whose ends belong to it exactly if `m` is even. `shortest` looks on ever finer
decimal grids, from one digit up to seventeen, for a grid point in that interval; it is enough to try
the two neighbours of the number on each grid, and of two hits the nearer one is taken.

`Layout` says how the digits are written out.
-/

namespace Daybook.Shortest

-- Powers are those of the core library, whatever else is in scope.
attribute [local instance (high)] instPowNat

/-- A positive number as a quotient, with half the width of its rounding interval downwards and
upwards in the same unit: the interval is `[value - below, value + above] / unit`. -/
structure Interval where
  value : Nat
  below : Nat
  above : Nat
  unit : Nat
  /-- Whether the ends belong to the interval. -/
  closed : Bool

/-- The rounding interval of `m · 2^q`. Below a power of two the spacing is halved, unless it is the
least one already. -/
def Interval.ofBinary (m : Nat) (q : Int) : Interval :=
  let below : Nat := if m = 2 ^ (52 : Nat) ∧ q ≠ -1074 then 1 else 2
  let scale := q - 2
  let shift := 2 ^ scale.toNat
  { value := 4 * m * shift, below := below * shift, above := 2 * shift,
    unit := 2 ^ (-scale).toNat, closed := m % 2 = 0 }

/-- The exponent of the first digit: the greatest `e` with `10^e ≤ value / unit`. -/
def leadingExponent (value unit : Nat) : Int :=
  if unit ≤ value then ((Numeral.write (value / unit)).length : Int) - 1
  else
    let digits := (Numeral.write (unit / value)).length
    if unit = value * 10 ^ (digits - 1) then 1 - (digits : Int) else -(digits : Int)

/-- Whether `a · 10^k` lies in the interval. -/
def Interval.contains (i : Interval) (a : Nat) (k : Int) : Bool :=
  let point := a * 10 ^ k.toNat * i.unit
  let scale := 10 ^ (-k).toNat
  let low := (i.value - i.below) * scale
  let high := (i.value + i.above) * scale
  if i.closed then low ≤ point && point ≤ high else low < point && point < high

/-- The number of units of `10^k` that is nearest to the value among the neighbours in the interval;
a tie goes to the even one. -/
def Interval.onGrid? (i : Interval) (k : Int) : Option Nat :=
  let scaled := i.value * 10 ^ (-k).toNat
  let step := i.unit * 10 ^ k.toNat
  let low := scaled / step
  match i.contains low k, i.contains (low + 1) k with
  | true, true =>
    let twice := 2 * (scaled - low * step)
    if twice < step ∨ (twice = step ∧ low % 2 = 0) then some low else some (low + 1)
  | true, false => some low
  | false, true => some (low + 1)
  | false, false => none

/-- The digits of the shortest decimal in the interval, without trailing zeros, and the exponent of
the first digit. -/
def shortest (i : Interval) : Numeral × Int :=
  let lead := leadingExponent i.value i.unit
  let found := (List.range 17).findSome? fun (extra : Nat) =>
    let k := lead - (extra : Int)
    (i.onGrid? k).bind fun a => if a = 0 then none else some (a, k)
  match found with
  | some (a, k) =>
    let digits := Numeral.write a
    ((digits.reverse.dropWhile (· = 0)).reverse, k + digits.length - 1)
  | none => ([0], 0)

/-- How a decimal number is laid out. -/
structure Layout where
  /-- The exponents that are written positionally: at least the first, less than the second. -/
  positional : Int × Int
  /-- The least number of digits of a written exponent. -/
  exponentDigits : Nat

/-- Numbers from a ten-thousandth up to ten to the sixteenth are written positionally and with a
point; others have one digit before the point and an exponent of two digits or more. -/
def Layout.default : Layout := ⟨(-4, 16), 2⟩

/-- The digits written out, where `e` is the exponent of the first one. -/
def Layout.write (l : Layout) (digits : Numeral) (e : Int) : List Char :=
  if l.positional.1 ≤ e ∧ e < l.positional.2 then
    if e < 0 then
      '0' :: '.' :: List.replicate (-e - 1).toNat '0' ++ digits.toChars
    else
      let count := e.toNat + 1
      let whole := digits.take count ++ List.replicate (count - digits.length) 0
      let rest := if digits.length ≤ count then [0] else digits.drop count
      Numeral.toChars whole ++ '.' :: Numeral.toChars rest
  else
    let mantissa := match digits.toChars with
      | first :: second :: more => first :: '.' :: second :: more
      | short => short
    let sign := if e < 0 then '-' else '+'
    mantissa ++ 'e' :: sign :: (Numeral.pad l.exponentDigits (Numeral.write e.natAbs)).toChars

end Daybook.Shortest

namespace Daybook

/-- The shortest text that reads back as the given double. -/
def realText (x : Float) : String :=
  match Binary.ofFloat? x with
  | some b =>
    let magnitude :=
      if b.mantissa = 0 then Shortest.Layout.default.write [0] 0
      else
        let (digits, e) := Shortest.shortest (Shortest.Interval.ofBinary b.mantissa b.exponent)
        Shortest.Layout.default.write digits e
    String.ofList (if b.negative then '-' :: magnitude else magnitude)
  | none => if x < 0 then "-inf" else if 0 < x then "inf" else "nan"

end Daybook
