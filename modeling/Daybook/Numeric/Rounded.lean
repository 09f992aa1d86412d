import Daybook.Numeric.Amount

/-!
Decimal texts of a given precision.

A positive number is written with so many places after the point, or with so many digits and a power of
ten. It is rounded to the nearest such number, a half to the even neighbour.
-/

namespace Daybook

/-- The integer nearest to a number; a half goes to the even neighbour. -/
def roundHalfEven (q : Rat) : Int :=
  let low := q.floor
  let part := q - low
  if part < 1 / 2 ∨ (part = 1 / 2 ∧ low % 2 = 0) then low else low + 1

namespace Rounded

-- Powers are those of the core library, whatever else is in scope.
attribute [local instance (high)] instPowNat

/-- A power of ten. -/
def tenPow (e : Int) : Rat :=
  if 0 ≤ e then ((10 ^ e.toNat : Nat) : Rat) else mkRat 1 (10 ^ (-e).toNat)

/-- The exponent of the first digit of a positive number. -/
def leadExponent (q : Rat) : Int :=
  let e : Int := (Numeral.write q.num.natAbs).length - (Numeral.write q.den).length
  if tenPow e ≤ q then e else e - 1

/-- So many digits of a number that is not negative, rounded, and the exponent of the first one. -/
def digits (count : Nat) (q : Rat) : Numeral × Int :=
  if q = 0 then (List.replicate count 0, 0)
  else
    let e := leadExponent q
    let units := (roundHalfEven (q * tenPow (count - 1 - e))).toNat
    if units = 10 ^ count then (1 :: List.replicate (count - 1) 0, e + 1)
    else (Numeral.write units, e)

/-- Digits with a point behind the first ones; `keepPoint` says whether it stays if nothing follows. -/
def pointed (whole places : List Char) (keepPoint : Bool) : List Char :=
  if places.isEmpty && !keepPoint then whole else whole ++ '.' :: places

/-- An exponent of at least two digits, with its sign. -/
def exponentText (e : Int) : List Char :=
  (if e < 0 then '-' else '+') :: (Numeral.pad 2 (Numeral.write e.natAbs)).toChars

/-- The text with a number of places after the point. -/
def fixed (places : Nat) (keepPoint : Bool) (q : Rat) : List Char :=
  let ds := Numeral.pad (places + 1) (Numeral.write (roundHalfEven (q * tenPow places)).toNat)
  let whole := ds.length - places
  pointed (Numeral.toChars (ds.take whole)) (Numeral.toChars (ds.drop whole)) keepPoint

/-- The text with one digit in front of the point, a number of places after it, and a power of ten. -/
def scientific (places : Nat) (keepPoint : Bool) (q : Rat) : List Char :=
  let (ds, e) := digits (places + 1) q
  pointed (Numeral.toChars (ds.take 1)) (Numeral.toChars (ds.drop 1)) keepPoint
    ++ 'e' :: exponentText e

/-- The text with a number of digits, without a power of ten if it is neither small nor large. Zeros at
the end are left out, unless `keepZeros` says that they stay. -/
def general (count : Nat) (keepZeros : Bool) (q : Rat) : List Char :=
  let count := max count 1
  let (ds, e) := digits count q
  let trim := fun (cs : List Char) =>
    if keepZeros then cs else (cs.reverse.dropWhile (· = '0')).reverse
  let text := Numeral.toChars ds
  if e < -4 ∨ (count : Int) ≤ e then
    pointed (text.take 1) (trim (text.drop 1)) keepZeros ++ 'e' :: exponentText e
  else if e < 0 then
    pointed ['0'] (trim (List.replicate (-e - 1).toNat '0' ++ text)) keepZeros
  else pointed (text.take (e.toNat + 1)) (trim (text.drop (e.toNat + 1))) keepZeros

end Rounded

end Daybook
