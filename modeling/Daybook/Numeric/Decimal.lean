import Daybook.Numeric.Numeral
import Daybook.Text.Quoted

/-!
Decimal literals.

A literal is an optional minus sign, one or more digits, and optionally a point with one or more
digits. The structure keeps every digit as written, so that a literal and its text determine each
other; its value is the exact quotient of the number of all its digits and a power of ten.
-/

namespace Daybook

/-- A decimal literal as written. -/
structure Decimal where
  negative : Bool
  whole : Numeral
  /-- The digits after the point; there is a point exactly if there are such digits. -/
  places : Numeral
  whole_ne_nil : whole ≠ []
  deriving DecidableEq

namespace Decimal

-- Powers are those of the core library, whatever else is in scope.
attribute [local instance (high)] instPowNat

/-- Whether the literal is written without a point. -/
def isInteger (d : Decimal) : Bool :=
  d.places.isEmpty

/-- The natural number that the literal is, if it has neither sign nor point. -/
def natural? (d : Decimal) : Option Nat :=
  if !d.negative && d.isInteger then some (Numeral.read d.whole) else none

/-- The exact value. -/
def value (d : Decimal) : Rat :=
  let magnitude := mkRat (Numeral.read (d.whole ++ d.places)) (10 ^ d.places.length)
  if d.negative then -magnitude else magnitude

/-- The point and the digits after it. -/
def placesText (places : Numeral) : List Char :=
  if places.isEmpty then [] else '.' :: places.toChars

/-- The text of the literal. -/
def toChars (d : Decimal) : List Char :=
  (if d.negative then ['-'] else []) ++ d.whole.toChars ++ placesText d.places

/-- The text of the literal, as a string. -/
def text (d : Decimal) : String :=
  String.ofList d.toChars

/-- The point and the digits after it that a text begins with. A point that no digit follows is left
where it is. -/
def spanPlaces : List Char → Numeral × List Char
  | '.' :: cs => if (Numeral.span cs).1.isEmpty then ([], '.' :: cs) else Numeral.span cs
  | cs => ([], cs)

/-- The longest literal without a sign that a text begins with, and the rest of the text. -/
def takeUnsigned? (cs : List Char) : Option (Decimal × List Char) :=
  if h : (Numeral.span cs).1 = [] then none
  else
    let fraction := spanPlaces (Numeral.span cs).2
    some (⟨false, (Numeral.span cs).1, fraction.1, h⟩, fraction.2)

/-- The literal that a text is as a whole. -/
def ofChars? : List Char → Option Decimal
  | '-' :: cs => do
    let (d, rest) ← takeUnsigned? cs
    if rest.isEmpty then some { d with negative := true } else none
  | cs => do
    let (d, rest) ← takeUnsigned? cs
    if rest.isEmpty then some d else none

/-- The literal that a string is as a whole. -/
def ofString? (s : String) : Option Decimal :=
  ofChars? s.toList

/-! ## What reading takes off the front -/

/-- The places that are taken from a text, with the point in front of them, and the rest are the text. -/
theorem placesText_spanPlaces (cs : List Char) :
    placesText (spanPlaces cs).1 ++ (spanPlaces cs).2 = cs := by
  unfold spanPlaces
  split
  · next cs =>
    split
    · rfl
    · next h => simp [placesText, h, Numeral.toChars_span]
  · rfl

/-- A literal that is taken from a text, and the rest, are the text; it has no sign. -/
theorem takeUnsigned?_eq_some {cs rest : List Char} {d : Decimal}
    (h : takeUnsigned? cs = some (d, rest)) : d.toChars ++ rest = cs ∧ d.negative = false := by
  unfold takeUnsigned? at h
  split at h
  · cases h
  · simp only [Option.some.injEq, Prod.mk.injEq] at h
    obtain ⟨rfl, rfl⟩ := h
    refine ⟨?_, rfl⟩
    simp only [toChars, Bool.false_eq_true, if_false, List.nil_append, List.append_assoc]
    rw [placesText_spanPlaces, Numeral.toChars_span]

end Decimal

/-- The reason for which a text has no exact decimal value; the message shows no more than the first
forty characters. -/
structure NotDecimal where
  literal : String
  deriving DecidableEq

namespace NotDecimal

/-- The text of the message. -/
def message (e : NotDecimal) : String :=
  s!"not a decimal literal: {Text.quoted (String.ofList (e.literal.toList.take 40))}"

end NotDecimal

/-- The exact value of a decimal literal of any length. -/
def Decimal.parse (s : String) : Except NotDecimal Rat :=
  match Decimal.ofString? s with
  | some d => .ok d.value
  | none => .error ⟨s⟩

end Daybook
