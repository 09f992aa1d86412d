/-!
Reading a document character by character.

A cursor holds the rest of a text, how many characters come before it, and the line and the column
that it begins at. Lines end at a line feed or at one of the other characters for the end of a line.
`next` goes one character on.
-/

namespace Daybook.Yaml

/-- A line and a column, counted from zero. -/
structure Mark where
  line : Nat
  column : Nat
  deriving DecidableEq

namespace Mark

/-- The place that many columns further. -/
def right (m : Mark) (columns : Nat) : Mark := { m with column := m.column + columns }

/-- A place in words, where lines and columns are counted from one. -/
def inWords (m : Mark) (fileName : String) : String :=
  "  in \"" ++ fileName ++ s!"\", line {m.line + 1}, column {m.column + 1}"

end Mark

/-- Whether a character ends a line. -/
def isLineEnd (c : Char) : Bool :=
  c = '\n' || c = '\u0085' || c = '\u2028' || c = '\u2029'

/-- Whether a character is a space or a tab. -/
def isSpace (c : Char) : Bool :=
  c = ' ' || c = '\t'

/-- Whether a text begins with a space, a tab or a line end, or is empty. -/
def beginsBlank : List Char → Bool
  | [] => true
  | c :: _ => isSpace c || isLineEnd c

/-- Whether a text begins with a line end. -/
def beginsLineEnd : List Char → Bool
  | [] => false
  | c :: _ => isLineEnd c

/-- Whether three hyphens or three points stand here, with nothing attached to them. -/
def beginsSeparator : List Char → Bool
  | a :: b :: c :: rest => ((a = '-' && b = '-' && c = '-') || (a = '.' && b = '.' && c = '.')) &&
    beginsBlank rest
  | _ => false

/-- How an end of a line is kept in a text: mostly as a line feed. -/
def keptLineEnd (c : Char) : Char :=
  if c = '\u0085' then '\n' else c

/-- The rest of a text, and where it stands. -/
structure Cursor where
  rest : List Char
  index : Nat
  mark : Mark
  deriving DecidableEq

namespace Cursor

/-- The beginning of a text. -/
def start (text : List Char) : Cursor := ⟨text, 0, ⟨0, 0⟩⟩

/-- The place after a character. A byte order mark has no width. -/
def markAfter (m : Mark) (c : Char) : Mark :=
  if isLineEnd c then ⟨m.line + 1, 0⟩ else if c = '\uFEFF' then m else m.right 1

/-- One character further, or at the end. -/
def next (k : Cursor) : Cursor :=
  match k.rest with
  | [] => k
  | c :: rest => ⟨rest, k.index + 1, markAfter k.mark c⟩

/-- Some characters further. -/
def skip (k : Cursor) : Nat → Cursor
  | 0 => k
  | count + 1 => skip k.next count

/-- Behind the characters with a property that come next. -/
def skipWhile (k : Cursor) (p : Char → Bool) : Cursor :=
  k.skip (k.rest.takeWhile p).length

end Cursor

end Daybook.Yaml
