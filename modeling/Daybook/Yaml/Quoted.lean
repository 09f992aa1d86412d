import Daybook.Yaml.Flaw
import Daybook.Yaml.Scalar

/-!
Scalars in quotes.

Between double quotes a backslash introduces an escape; between single quotes a quote is written
twice. Spaces around the end of a line are dropped and the end of a line counts as a space, but if
empty lines follow they count instead. `fuel` bounds the number of characters.
-/

namespace Daybook.Yaml

-- Powers are those of the core library, whatever else is in scope.
attribute [local instance (high)] instPowNat

/-- The letters that stand for a character after a backslash. -/
def escapes : List (Char × Nat) :=
  [ ('0', 0), ('a', 7), ('b', 8), ('t', 9), ('\t', 9), ('n', 10), ('v', 11), ('f', 12), ('r', 13),
    ('e', 27), (' ', 32), ('"', 34), ('/', 47), ('\\', 92), ('N', 0x85), ('_', 0xA0), ('L', 0x2028),
    ('P', 0x2029) ]

/-- How many hexadecimal digits follow a letter after a backslash. -/
def escapeWidth? (c : Char) : Option Nat :=
  if c = 'x' then some 2 else if c = 'u' then some 4 else if c = 'U' then some 8 else none

/-- The code point with the given number. -/
def codePoint (n : Nat) : Except Failure Nat :=
  if n < 0x110000 then .ok n
  else if n < 2 ^ (31 : Nat) then .error .impossibleScalar
  else .error .hugeCharacter

/-- The code point that some hexadecimal digits name. -/
def hexEscape (start : Mark) (width : Nat) (k : Cursor) : Except Failure (List Nat × Cursor) :=
  let digits := (k.rest.take width).takeWhile fun c => (digitIn? 16 c).isSome
  if digits.length < width then
    let found := (k.rest.drop digits.length).headD '\x00'
    .error (.flaw (.shortEscape width found start k.mark))
  else do
    let code ← codePoint ((digitsIn? 16 digits).getD 0)
    return ([code], k.skip width)

/-- The empty lines that come next, as far as they are kept, and what stands behind them and behind the
spaces in front of the next text. -/
def emptyLines (start : Mark) (fuel : Nat) (k : Cursor) : Except Failure (List Char × Cursor) :=
  match fuel with
  | 0 => .ok ([], k)
  | fuel + 1 =>
    if beginsSeparator k.rest then .error (.flaw (.separatorInQuote start k.mark))
    else
      let k := k.skipWhile isSpace
      match k.rest with
      | c :: _ =>
        if isLineEnd c then do
          let (lines, after) ← emptyLines start fuel k.next
          return (keptLineEnd c :: lines, after)
        else .ok ([], k)
      | [] => .ok ([], k)

/-- What the end of a line with the given empty lines after it counts as. -/
def folded (lineEnd : Char) (emptyLines : List Char) : List Char :=
  if keptLineEnd lineEnd ≠ '\n' then lineEnd :: emptyLines
  else if emptyLines.isEmpty then [' '] else emptyLines

/-- What an escape stands for, of which the backslash was read. -/
def escape (start : Mark) (fuel : Nat) (k : Cursor) : Except Failure (List Nat × Cursor) :=
  match k.rest with
  | [] => .error (.flaw (.unknownEscape '\x00' start k.mark))
  | c :: _ =>
    match escapes.find? (·.1 = c), escapeWidth? c with
    | some (_, code), _ => .ok ([code], k.next)
    | none, some width => hexEscape start width k.next
    | none, none =>
      if isLineEnd c then do
        let (lines, after) ← emptyLines start fuel k.next
        return (lines.map Char.toNat, after)
      else .error (.flaw (.unknownEscape c start k.mark))

/-- What spaces and line ends inside quotes count as. -/
def quotedGap (start : Mark) (fuel : Nat) (k : Cursor) : Except Failure (List Nat × Cursor) :=
  let spaces := k.rest.takeWhile isSpace
  let k := k.skip spaces.length
  match k.rest with
  | [] => .error (.flaw (.openQuote start k.mark))
  | c :: _ =>
    if isLineEnd c then do
      let (lines, after) ← emptyLines start fuel k.next
      return ((folded c lines).map Char.toNat, after)
    else .ok (spaces.map Char.toNat, k)

/-- The code points up to the closing quote, which is `quote`, and what stands behind it. -/
def quotedRest (quote : Char) (start : Mark) (fuel : Nat) (k : Cursor) :
    Except Failure (List Nat × Cursor) :=
  match fuel with
  | 0 => .error (.flaw (.openQuote start k.mark))
  | fuel + 1 => do
    let go := fun (step : List Nat × Cursor) => do
      let (codes, after) ← quotedRest quote start fuel step.2
      return (step.1 ++ codes, after)
    if beginsBlank k.rest then go (← quotedGap start fuel k)
    else
      match k.rest with
      | [] => .error (.flaw (.openQuote start k.mark))
      | c :: rest =>
        if c = quote then
          if quote = '\'' ∧ rest.head? = some '\'' then go ([c.toNat], k.skip 2)
          else return ([], k.next)
        else if quote = '"' ∧ c = '\\' then go (← escape start fuel k.next)
        else go ([c.toNat], k.next)

/-- A scalar in quotes, which begins here. -/
def quotedScalar (k : Cursor) : Except Failure (List Nat × Cursor) :=
  quotedRest (k.rest.headD '"') k.mark (k.rest.length + 1) k.next

end Daybook.Yaml
