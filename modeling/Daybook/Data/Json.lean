import Daybook.Data.Value

/-!
Values as JSON on one line.

The text is plain ASCII: every character outside the printable part of ASCII is escaped, those past
the basic plane as a surrogate pair. A comma and a colon are followed by a space. Keys that are not
text are written as the text of their value. What JSON has no notation for is written as its text in
quotes, and a set as the sorted list of the texts of its items.
-/

namespace Daybook.Json

/-- The escape of a code unit. -/
def unitEscape (unit : Nat) : List Char :=
  '\\' :: 'u' :: Text.hexDigits 4 unit

/-- One character of a string. -/
def escape (c : Char) : List Char :=
  if c = '"' then ['\\', '"']
  else if c = '\\' then ['\\', '\\']
  else if c = '\n' then ['\\', 'n']
  else if c = '\r' then ['\\', 'r']
  else if c = '\t' then ['\\', 't']
  else if c.toNat = 0x0C then ['\\', 'f']
  else if c.toNat = 0x08 then ['\\', 'b']
  else if 0x20 ≤ c.toNat ∧ c.toNat ≤ 0x7E then [c]
  else if c.toNat ≤ 0xFFFF then unitEscape c.toNat
  else
    let offset := c.toNat - 0x10000
    unitEscape (0xD800 + offset / 0x400) ++ unitEscape (0xDC00 + offset % 0x400)

/-- A string in quotes. -/
def string (s : String) : String :=
  String.ofList ('"' :: s.toList.flatMap escape ++ ['"'])

/-- One code point of a string, which may be half of a surrogate pair. -/
def escapeCode (code : Nat) : List Char :=
  if code.isValidChar then escape (Char.ofNat code) else unitEscape code

/-- A number. -/
def number (x : Float) : String :=
  let text := realText x
  if text = "inf" then "Infinity" else if text = "-inf" then "-Infinity"
  else if text = "nan" then "NaN" else text

/-- The key that stands for a value. -/
def key : Value → String
  | .null => "null"
  | .bool b => if b then "true" else "false"
  | .real x => number x
  | v => v.plain

/-- The items of a set as strings in order. -/
def setItems (items : List Value) : List String :=
  ((items.map Value.plain).mergeSort fun a b => decide (a ≤ b)).map string

mutual

/-- The text of a value. -/
def write : Value → String
  | .null => "null"
  | .bool b => if b then "true" else "false"
  | .integer n => String.ofList (intText n)
  | .real x => number x
  | .rational q => string (Value.rational q).plain
  | .text s => string s
  | .brokenText codes => String.ofList ('"' :: codes.flatMap escapeCode ++ ['"'])
  | .bytes bs => string (Value.bytesLiteral bs)
  | .date d => string d.iso
  | .dateTime t => string (t.iso "T")
  | .zonedTime t => string (t.iso "T")
  | .span s => string s.text
  | .other _ shown _ => string shown
  | .set items => "[" ++ commaSeparated (setItems items) ++ "]"
  | .tuple items => "[" ++ commaSeparated (writeItems items) ++ "]"
  | .list items => "[" ++ commaSeparated (writeItems items) ++ "]"
  | .mapping entries => "\x7b" ++ commaSeparated (writeEntries entries) ++ "\x7d"

/-- The texts of the items of a list. -/
def writeItems : List Value → List String
  | [] => []
  | item :: items => write item :: writeItems items

/-- The texts of the entries of an object. -/
def writeEntries : List (Value × Value) → List String
  | [] => []
  | (name, item) :: entries => (string (key name) ++ ": " ++ write item) :: writeEntries entries

end

/-- An object with the given fields, in order. -/
def object (fields : List (String × Value)) : Value :=
  .mapping (fields.map fun (name, v) => (.text name, v))

end Daybook.Json
