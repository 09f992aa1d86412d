import Daybook.Text.Printable

/-!
Quoted text, as messages show a piece of the source.

The text stands between apostrophes, or between double quotes if it holds an apostrophe and no
double quote. The backslash and the quote in use are escaped with a backslash, line feed, carriage
return and tab have their letters, and every other character that is not printable is written by
its code point in lower-case hexadecimal, in the shortest of the forms with two, four and eight
digits.
-/

namespace Daybook.Text

/-- At least `count` hexadecimal digits of `n`, in lower case. -/
def hexDigits (count n : Nat) : List Char :=
  let digits := Nat.toDigits 16 n
  List.replicate (count - digits.length) '0' ++ digits

/-- A text of ASCII alone, where other characters are written by their code points. -/
def asciiOnly (text : List Char) : List Char :=
  text.flatMap fun c =>
    if c.toNat < 0x80 then [c]
    else if c.toNat ≤ 0xFF then '\\' :: 'x' :: hexDigits 2 c.toNat
    else if c.toNat ≤ 0xFFFF then '\\' :: 'u' :: hexDigits 4 c.toNat
    else '\\' :: 'U' :: hexDigits 8 c.toNat

namespace Quoted

/-- The quote that a text is written between. -/
def quoteFor (text : List Char) : Char :=
  if text.contains '\'' && !text.contains '"' then '"' else '\''

/-- One character inside the given quotes. -/
def escape (quote c : Char) : List Char :=
  if c = '\\' || c = quote then ['\\', c]
  else if c = '\n' then ['\\', 'n']
  else if c = '\r' then ['\\', 'r']
  else if c = '\t' then ['\\', 't']
  else if isPrintable c then [c]
  else if c.toNat ≤ 0xFF then '\\' :: 'x' :: hexDigits 2 c.toNat
  else if c.toNat ≤ 0xFFFF then '\\' :: 'u' :: hexDigits 4 c.toNat
  else '\\' :: 'U' :: hexDigits 8 c.toNat

/-- One code point inside the given quotes. Half of a surrogate pair is no character and never
printable. -/
def escapeCode (quote : Char) (code : Nat) : List Char :=
  if code.isValidChar then escape quote (Char.ofNat code) else '\\' :: 'u' :: hexDigits 4 code

/-- The quoted form of a text that is given by its code points. -/
def encodeCodes (codes : List Nat) : List Char :=
  let quote := quoteFor (codes.map Char.ofNat)
  quote :: codes.flatMap (escapeCode quote) ++ [quote]

/-- The quoted form of a text. -/
def encode (text : List Char) : List Char :=
  let quote := quoteFor text
  quote :: text.flatMap (escape quote) ++ [quote]

end Quoted

/-- The quoted form of a string. -/
def quoted (text : String) : String :=
  String.ofList (Quoted.encode text.toList)

end Daybook.Text
