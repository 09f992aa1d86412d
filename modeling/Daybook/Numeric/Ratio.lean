import Daybook.Numeric.Numeral
import Daybook.Text.Blank
import Daybook.Text.DecimalDigit

/-!
Rational numbers in lenient notation.

The notation allows white space around the number, a sign of either kind, and then either a quotient
of two whole numbers or a decimal number with an exponent. Digits may come from any script and may
be grouped by single underscores. A run of digits longer than `Numeral.digitLimit` is refused,
underscores not counted.
-/

namespace Daybook

/-- What a number in lenient notation says, its sign apart. -/
inductive Ratio.Magnitude where
  | quotient (numerator denominator : Numeral)
  | scaled (whole places : Numeral) (negativeExponent : Bool) (exponent : Numeral)
  deriving DecidableEq

/-- A number in lenient notation. -/
structure Ratio where
  negative : Bool
  magnitude : Ratio.Magnitude
  deriving DecidableEq

namespace Ratio

-- Powers are those of the core library, whatever else is in scope.
attribute [local instance (high)] instPowNat

/-- Why a text in lenient notation has no value. -/
inductive Refusal where
  | malformed
  | tooManyDigits
  | zeroDenominator
  deriving DecidableEq

/-- The digits that a text begins with, single underscores between them skipped, and the rest. -/
def digitGroup : List Char → Numeral × List Char
  | [] => ([], [])
  | c :: cs =>
    match Text.decimalDigit? c with
    | none => ([], c :: cs)
    | some d =>
      match cs with
      | '_' :: c' :: cs' =>
        if (Text.decimalDigit? c').isSome then
          (d :: (digitGroup (c' :: cs')).1, (digitGroup (c' :: cs')).2)
        else ([d], '_' :: c' :: cs')
      | cs => (d :: (digitGroup cs).1, (digitGroup cs).2)
termination_by cs => cs.length

/-- The sign that a text begins with, true for a minus, and the rest. -/
def sign : List Char → Bool × List Char
  | '-' :: cs => (true, cs)
  | '+' :: cs => (false, cs)
  | cs => (false, cs)

/-- The point and the digits after it, which may be missing. -/
def fraction : List Char → Numeral × List Char
  | '.' :: cs => digitGroup cs
  | cs => ([], cs)

/-- The exponent: a letter, a sign and at least one digit. Without such a digit there is no
exponent. -/
def exponent : List Char → (Bool × Numeral) × List Char
  | c :: cs =>
    let (negative, rest) := sign cs
    let (digits, rest) := digitGroup rest
    if (c = 'e' ∨ c = 'E') ∧ digits ≠ [] then ((negative, digits), rest)
    else ((false, []), c :: cs)
  | [] => ((false, []), [])

/-- The number without sign that a text begins with, and the rest. -/
def magnitude? (cs : List Char) : Option (Magnitude × List Char) :=
  let (whole, rest) := digitGroup cs
  match rest with
  | '/' :: after =>
    let (denominator, rest) := digitGroup after
    if whole.isEmpty || denominator.isEmpty then none
    else some (.quotient whole denominator, rest)
  | _ =>
    let (places, rest) := fraction rest
    if whole.isEmpty && places.isEmpty then none
    else
      let ((negative, digits), rest) := exponent rest
      some (.scaled whole places negative digits, rest)

/-- The number that a text as a whole is in lenient notation. -/
def ofChars? (cs : List Char) : Option Ratio := do
  let (negative, rest) := sign (cs.dropWhile Text.isWideBlank)
  let (magnitude, rest) ← magnitude? rest
  if rest.all Text.isWideBlank then some ⟨negative, magnitude⟩ else none

/-- The runs of digits in a number. -/
def Magnitude.runs : Magnitude → List Numeral
  | .quotient numerator denominator => [numerator, denominator]
  | .scaled whole places _ exponent => [whole, places, exponent]

/-- The exact value. -/
def Magnitude.value : Magnitude → Except Refusal Rat
  | .quotient numerator denominator =>
    if Numeral.read denominator = 0 then .error .zeroDenominator
    else .ok (mkRat (Numeral.read numerator) (Numeral.read denominator))
  | .scaled whole places negative exponent =>
    let units := Numeral.read whole * 10 ^ places.length + Numeral.read places
    let power := 10 ^ Numeral.read exponent
    if negative then .ok (mkRat units (10 ^ places.length * power))
    else .ok (mkRat (units * power : Nat) (10 ^ places.length))

/-- The exact value of a number in lenient notation. -/
def value (r : Ratio) : Except Refusal Rat := do
  if r.magnitude.runs.any (Numeral.digitLimit < ·.length) then .error .tooManyDigits
  else
    let q ← r.magnitude.value
    .ok (if r.negative then -q else q)

/-- The exact value of a text in lenient notation. -/
def parse (s : String) : Except Refusal Rat :=
  match ofChars? s.toList with
  | some r => r.value
  | none => .error .malformed

end Ratio

end Daybook
