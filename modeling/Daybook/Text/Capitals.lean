/-!
Capital letters.

`capitals` is exact for every text whose capital form is plain ASCII, which is enough to compare it
with words in ASCII capitals: besides the lower-case letters of ASCII themselves, ten letters and
ligatures of other blocks have such a form. All other characters are left as they are, also where
they have a capital form outside ASCII.
-/

namespace Daybook.Text

/-- The capital form of a character, if it is ASCII. -/
def capital (c : Char) : List Char :=
  match c.toNat with
  | 0xDF => ['S', 'S']
  | 0x131 => ['I']
  | 0x17F => ['S']
  | 0xFB00 => ['F', 'F']
  | 0xFB01 => ['F', 'I']
  | 0xFB02 => ['F', 'L']
  | 0xFB03 => ['F', 'F', 'I']
  | 0xFB04 => ['F', 'F', 'L']
  | 0xFB05 => ['S', 'T']
  | 0xFB06 => ['S', 'T']
  | _ => [c.toUpper]

/-- The capital form of a text, as far as it is ASCII. -/
def capitals (s : String) : String :=
  String.ofList (s.toList.flatMap capital)

end Daybook.Text
