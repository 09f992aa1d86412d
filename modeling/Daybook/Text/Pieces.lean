/-!
Texts cut at a character.

`pieces` cuts a text wherever the given character stands; there is always one more piece than there
are cuts. `unifyLineEnds` leaves one character for the end of a line, however it was written.
-/

namespace Daybook.Text

/-- The pieces of a text between the places where a character stands. -/
def pieces (separator : Char) : List Char → List (List Char)
  | [] => [[]]
  | c :: cs =>
    match pieces separator cs with
    | piece :: others => if c = separator then [] :: piece :: others else (c :: piece) :: others
    | [] => [[c]]

/-- The text with one line feed for a carriage return with or without a line feed after it. -/
def unifyLineEnds : List Char → List Char
  | '\r' :: '\n' :: cs => '\n' :: unifyLineEnds cs
  | '\r' :: cs => '\n' :: unifyLineEnds cs
  | c :: cs => c :: unifyLineEnds cs
  | [] => []

end Daybook.Text
