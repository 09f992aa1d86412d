/-!
White space.

Two sets are in use. Between the tokens of a ledger only the six blanks of ASCII count; around a
number that is read leniently, and at the end of a line of a table, every character with the property
White_Space does, together with the four information separators U+001C to U+001F.
-/

namespace Daybook.Text

/-- The blanks of ASCII: tab, line feed, vertical tab, form feed, carriage return and space. -/
def isBlank (c : Char) : Bool :=
  c = ' ' || (0x09 ≤ c.toNat && c.toNat ≤ 0x0D)

/-- White space of all scripts. -/
def isWideBlank (c : Char) : Bool :=
  isBlank c || (0x1C ≤ c.toNat && c.toNat ≤ 0x1F) || c.toNat = 0x85 || c.toNat = 0xA0
    || c.toNat = 0x1680 || (0x2000 ≤ c.toNat && c.toNat ≤ 0x200A) || c.toNat = 0x2028
    || c.toNat = 0x2029 || c.toNat = 0x202F || c.toNat = 0x205F || c.toNat = 0x3000

/-- So many spaces. -/
def spaces (count : Nat) : String :=
  String.ofList (List.replicate count ' ')

/-- The text without the white space at its end. -/
def stripEnd (s : String) : String :=
  String.ofList (s.toList.reverse.dropWhile isWideBlank).reverse

end Daybook.Text
