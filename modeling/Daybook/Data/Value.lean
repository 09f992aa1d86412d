import Daybook.Calendar.DateTime
import Daybook.Data.Record
import Daybook.Numeric.Shortest
import Daybook.Text.Quoted

/-!
Values whose kind is known only when they are looked at.

Configuration documents, fields of log records and amounts given from outside are such values.
`literal` writes a value as messages show it, with text in quotes; `plain` writes text as it is. Values
that can be looked up, which lists and mappings cannot, are told apart by `sameKey`: numbers by their
value, whatever their kind, and sets by their items.
-/

namespace Daybook

/-- A value of any kind. -/
inductive Value where
  | null
  | bool (b : Bool)
  | integer (n : Int)
  | real (x : Float)
  | rational (q : Rat)
  | text (s : String)
  /-- Text with half of a surrogate pair in it, which no character is; its code points. -/
  | brokenText (codes : List Nat)
  | bytes (bs : List UInt8)
  | date (d : Date)
  | dateTime (t : DateTime)
  | zonedTime (t : ZonedTime)
  | span (s : Span)
  | list (items : List Value)
  | tuple (items : List Value)
  | set (items : List Value)
  | mapping (entries : List (Value × Value))
  /-- A value of another kind, of which the texts are known: as running text and as messages show
  it. -/
  | other (kind shown literal : String)

namespace Value

instance : Inhabited Value := ⟨.null⟩

/-- The name that messages give to the kind of a value. -/
def kindName : Value → String
  | .null => "NoneType"
  | .bool _ => "bool"
  | .integer _ => "int"
  | .real _ => "float"
  | .rational _ => "Fraction"
  | .text _ => "str"
  | .brokenText _ => "str"
  | .bytes _ => "bytes"
  | .date _ => "date"
  | .dateTime _ => "datetime"
  | .zonedTime _ => "datetime"
  | .span _ => "Span"
  | .list _ => "list"
  | .tuple _ => "tuple"
  | .set _ => "frozenset"
  | .mapping _ => "dict"
  | .other kind _ _ => kind

/-- The text of a rational number: a quotient in lowest terms, or an integer. -/
def rationalText (q : Rat) : List Char :=
  if q.den = 1 then intText q.num else intText q.num ++ '/' :: natText q.den

/-- The text of a truth value. -/
def boolText (b : Bool) : String :=
  if b then "True" else "False"

/-- Bytes as messages show them: as the characters of their numbers, where only those of ASCII stand as they are. -/
def bytesLiteral (bs : List UInt8) : String :=
  String.ofList ('b' :: Text.asciiOnly (Text.Quoted.encode (bs.map fun b => Char.ofNat b.toNat)))

mutual

/-- The value as messages show it. -/
def literal : Value → String
  | .null => "None"
  | .bool b => boolText b
  | .integer n => String.ofList (intText n)
  | .real x => realText x
  | .rational q =>
    "Fraction(" ++ String.ofList (intText q.num) ++ ", " ++ String.ofList (natText q.den) ++ ")"
  | .text s => Text.quoted s
  | .brokenText codes => String.ofList (Text.Quoted.encodeCodes codes)
  | .bytes bs => bytesLiteral bs
  | .date d => s!"datetime.date({d.year}, {d.month}, {d.day})"
  | .dateTime t => "datetime.datetime(" ++ commaSeparated t.parts ++ ")"
  | .zonedTime t =>
    "datetime.datetime(" ++ commaSeparated (t.clock.parts ++ ["tzinfo=" ++ t.zone]) ++ ")"
  | .span s => s.literal
  | .list items => "[" ++ commaSeparated (literals items) ++ "]"
  | .tuple items => "(" ++ commaSeparated (literals items) ++ (if items.length = 1 then ",)" else ")")
  | .set items =>
    if items.isEmpty then "frozenset()"
    else "frozenset(\x7b" ++ commaSeparated (literals items) ++ "\x7d)"
  | .mapping entries => "\x7b" ++ commaSeparated (entryLiterals entries) ++ "\x7d"
  | .other _ _ shown => shown

/-- The items of a list as messages show them. -/
def literals : List Value → List String
  | [] => []
  | item :: items => literal item :: literals items

/-- The entries of a mapping as messages show them. -/
def entryLiterals : List (Value × Value) → List String
  | [] => []
  | (key, item) :: entries => (literal key ++ ": " ++ literal item) :: entryLiterals entries

end

/-- The value as running text: text stands as it is. -/
def plain : Value → String
  | .text s => s
  | .rational q => String.ofList (rationalText q)
  | .date d => d.iso
  | .dateTime t => t.iso " "
  | .zonedTime t => t.iso " "
  | .span s => s.text
  | .other _ shown _ => shown
  | v => v.literal

/-- The text with the given code points. -/
def ofCodes (codes : List Nat) : Value :=
  if codes.all fun code => decide code.isValidChar then .text (String.ofList (codes.map Char.ofNat))
  else .brokenText codes

/-- What a value offers one after the other, if it offers anything: the items of a list, a tuple or a
set, the characters of a text, the numbers of bytes, the keys of a mapping. -/
def items? : Value → Option (List Value)
  | .list items => some items
  | .tuple items => some items
  | .set items => some items
  | .text s => some (s.toList.map fun c => .text (String.singleton c))
  | .brokenText codes => some (codes.map fun code => ofCodes [code])
  | .bytes bs => some (bs.map fun b => .integer b.toNat)
  | .mapping entries => some (entries.map (·.1))
  | _ => none

/-- The string that a value is. -/
def text? : Value → Option String
  | .text s => some s
  | _ => none

/-- The code points of the text that a value is. -/
def codes? : Value → Option (List Nat)
  | .text s => some (s.toList.map Char.toNat)
  | .brokenText codes => some codes
  | _ => none

/-- The truth value that a value is. -/
def bool? : Value → Option Bool
  | .bool b => some b
  | _ => none

/-- Whether a value counts as nothing: the null value, falsehood, zero, and what is empty. -/
def isEmpty : Value → Bool
  | .null => true
  | .bool b => !b
  | .integer n => n = 0
  | .real x => x == 0
  | .rational q => q = 0
  | .text s => s.isEmpty
  | .brokenText codes => codes.isEmpty
  | .bytes bs => bs.isEmpty
  | .date _ => false
  | .dateTime _ => false
  | .zonedTime _ => false
  | .span s => s.length = 0
  | .list items => items.isEmpty
  | .tuple items => items.isEmpty
  | .set items => items.isEmpty
  | .mapping entries => entries.isEmpty
  | .other .. => false

/-! ## Values that can be looked up -/

mutual

/-- Whether a value can be looked up by equality: lists and mappings cannot, nor what holds them. -/
def isKey : Value → Bool
  | .list _ => false
  | .mapping _ => false
  | .tuple items => areKeys items
  | _ => true

/-- Whether all values can be looked up. -/
def areKeys : List Value → Bool
  | [] => true
  | item :: items => isKey item && areKeys items

end

/-- The number that a value is compared as; truth values count as one and zero. -/
def number? : Value → Option Rat
  | .bool b => some (if b then 1 else 0)
  | .integer n => some n
  | .real x => (Binary.ofFloat? x).map Binary.value
  | .rational q => some q
  | _ => none

/-- Whether two values are the same number. What is infinite or no number is the same as itself. -/
def sameNumber (a b : Value) : Bool :=
  match a, b with
  | .real x, .real y => x == y || x.toBits = y.toBits
  | a, b =>
    match number? a, number? b with
    | some p, some q => p = q
    | _, _ => false

mutual

/-- Whether two values that can be looked up are found for each other. -/
def sameKey : Value → Value → Bool
  | .null, .null => true
  | .text s, .text t => s = t
  | .brokenText s, .brokenText t => s = t
  | .bytes s, .bytes t => s = t
  | .date d, .date e => d = e
  | .dateTime t, .dateTime u => t = u
  | .zonedTime t, .zonedTime u => t.instant = u.instant
  | .span s, .span t => s = t
  | .tuple items, .tuple others => sameKeys items others
  | .set items, .set others => items.length = others.length && allAmong items others
  | .other kind _ shown, .other otherKind _ otherShown => kind = otherKind && shown = otherShown
  | a, b => sameNumber a b

/-- Whether two lists hold the same values in the same order. -/
def sameKeys : List Value → List Value → Bool
  | [], [] => true
  | a :: as, b :: bs => sameKey a b && sameKeys as bs
  | _, _ => false

/-- Whether every value of a list is in another one. -/
def allAmong : List Value → List Value → Bool
  | [], _ => true
  | a :: as, bs => bs.any (sameKey a) && allAmong as bs

end

/-- The values without those that are the same as an earlier one. -/
def distinct (items : List Value) : List Value :=
  items.foldl (fun kept item => if kept.any (sameKey item) then kept else kept ++ [item]) []

/-- The values in increasing order, if they are numbers. -/
def inOrder (items : List Value) : List Value :=
  if items.all fun item => item.number?.isSome then
    items.mergeSort fun a b => decide (a.number?.getD 0 ≤ b.number?.getD 0)
  else items

/-- The set of some values, unless one of them cannot be looked up. -/
def setOf? (items : List Value) : Option Value :=
  if areKeys items then some (.set (inOrder (distinct items))) else none

end Value

end Daybook
