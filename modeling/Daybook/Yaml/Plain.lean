import Daybook.Yaml.Cursor

/-!
Scalars without quotes.

A plain scalar goes on over spaces and over lines, as long as these are indented more than what it
belongs to. It ends at a colon with a space after it, at a comment, at a document separator, and inside
brackets and braces at any of the characters that structure them.
-/

namespace Daybook.Yaml

/-- Characters that no plain scalar begins with. -/
def indicators : List Char :=
  ['-', '?', ':', ',', '[', ']', '\x7b', '\x7d', '#', '&', '*', '!', '|', '>', '\'', '"', '%', '@',
    '\x60']

/-- Whether a plain scalar begins here. A hyphen begins one if it is not followed by space, and so do
a question mark and a colon outside brackets and braces. -/
def beginsPlain (inFlow : Bool) : List Char → Bool
  | [] => false
  | c :: rest =>
    (!isSpace c && !isLineEnd c && !indicators.contains c)
      || (!beginsBlank rest && (c = '-' || (!inFlow && (c = '?' || c = ':'))))

/-- Whether one of the characters that structure lists and mappings comes next. -/
def beginsStructure : List Char → Bool
  | [] => false
  | c :: _ => c = ',' || c = '[' || c = ']' || c = '\x7b' || c = '\x7d'

/-- Whether a run of a plain scalar ends in front of a text. -/
def endsRun (inFlow : Bool) : List Char → Bool
  | [] => true
  | c :: rest =>
    isSpace c || isLineEnd c
      || (c = ':' && (beginsBlank rest || (inFlow && beginsStructure rest)))
      || (inFlow && (c = '?' || beginsStructure (c :: rest)))

/-- The run of a plain scalar that comes next. -/
def plainRun (inFlow : Bool) : List Char → List Char
  | [] => []
  | c :: rest => if endsRun inFlow (c :: rest) then [] else c :: plainRun inFlow rest

/-- What stands between two runs of a plain scalar. -/
structure PlainGap where
  /-- What it counts as in the text; nothing, if the scalar ends here. -/
  text : List Char
  after : Cursor
  /-- Whether a line ends in it. -/
  crossesLine : Bool

/-- The empty lines that come next, and what stands behind them and behind the spaces in front of the
next text. There are none if a document separator comes. -/
def plainLines (fuel : Nat) (k : Cursor) : Option (List Char) × Cursor :=
  match fuel, k.rest with
  | fuel + 1, c :: _ =>
    if c = ' ' then plainLines fuel k.next
    else if isLineEnd c then
      if beginsSeparator k.next.rest then (none, k.next)
      else
        let (lines, after) := plainLines fuel k.next
        (lines.map (keptLineEnd c :: ·), after)
    else (some [], k)
  | _, _ => (some [], k)

/-- What stands behind a run. -/
def plainGap (k : Cursor) : PlainGap :=
  let spaces := k.rest.takeWhile (· = ' ')
  let k := k.skip spaces.length
  match k.rest with
  | c :: _ =>
    if isLineEnd c then
      if beginsSeparator k.next.rest then ⟨[], k.next, true⟩
      else
        match plainLines k.rest.length k.next with
        | (none, after) => ⟨[], after, true⟩
        | (some lines, after) =>
          let text :=
            if keptLineEnd c ≠ '\n' then c :: lines else if lines.isEmpty then [' '] else lines
          ⟨text, after, true⟩
    else ⟨spaces, k, false⟩
  | [] => ⟨spaces, k, false⟩

/-- A plain scalar that was read. -/
structure PlainScalar where
  text : List Char
  stop : Mark
  /-- Where reading goes on, behind what was looked at after the scalar. -/
  after : Cursor
  /-- Whether a line ends between the scalar and there. -/
  crossesLine : Bool

/-- The rest of a plain scalar. `gap` is what stands in front of the run that comes next, and `indent`
is the least indentation of further lines. -/
def plainRest (inFlow : Bool) (indent : Int) (fuel : Nat) (gap : PlainGap) (stop : Mark) : PlainScalar :=
  let k := gap.after
  let run := plainRun inFlow k.rest
  match fuel with
  | 0 => ⟨[], stop, k, gap.crossesLine⟩
  | fuel + 1 =>
    if run.isEmpty || k.rest.head? = some '#' then ⟨[], stop, k, gap.crossesLine⟩
    else
      let k := k.skip run.length
      let next := plainGap k
      if next.text.isEmpty || (!inFlow && (next.after.mark.column : Int) < indent) then
        ⟨gap.text ++ run, k.mark, next.after, next.crossesLine⟩
      else
        let more := plainRest inFlow indent fuel next k.mark
        { more with text := gap.text ++ run ++ more.text }

/-- A plain scalar, which begins here. -/
def plainScalar (inFlow : Bool) (indent : Int) (k : Cursor) : PlainScalar :=
  plainRest inFlow indent (k.rest.length + 1) ⟨[], k, false⟩ k.mark

end Daybook.Yaml
