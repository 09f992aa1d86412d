/-!
Binary fractions.

A finite double is `± m · 2^q` with `m < 2^53`. `Binary.ofFloat?` takes the three parts out of its
bits.
-/

namespace Daybook

/-- A number `± mantissa · 2^exponent`. -/
structure Binary where
  negative : Bool
  mantissa : Nat
  exponent : Int
  deriving DecidableEq

namespace Binary

-- Powers are those of the core library, whatever else is in scope.
attribute [local instance (high)] instPowNat

/-- The parts of a double, unless it is infinite or no number. -/
def ofFloat? (x : Float) : Option Binary :=
  let bits := x.toBits.toNat
  let negative := bits / 2 ^ (63 : Nat) = 1
  let field := bits / 2 ^ (52 : Nat) % 2 ^ (11 : Nat)
  let fraction := bits % 2 ^ (52 : Nat)
  if field = 2047 then none
  else if field = 0 then some ⟨negative, fraction, -1074⟩
  else some ⟨negative, 2 ^ (52 : Nat) + fraction, Int.ofNat field - 1075⟩

/-- The exact value. -/
def value (b : Binary) : Rat :=
  let magnitude := mkRat (b.mantissa * 2 ^ b.exponent.toNat : Nat) (2 ^ (-b.exponent).toNat)
  if b.negative then -magnitude else magnitude

end Binary

end Daybook
