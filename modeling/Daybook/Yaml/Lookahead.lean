import Daybook.Yaml.Plain
import Daybook.Yaml.Quoted

/-!
Tokens that are read ahead.

Whether a scalar or a collection is a key shows only when a colon follows, on the same line and not too
far away. Until then tokens wait, because the tokens for the key, and for the mapping that begins with
it, come before it. Outside brackets and braces the indentation says where block lists and mappings
begin and end.
-/

namespace Daybook.Yaml

/-- Where a key may have begun. -/
structure PossibleKey where
  /-- The number of the token that the key begins with. -/
  number : Nat
  /-- Whether only a key can stand there. -/
  required : Bool
  index : Nat
  mark : Mark

/-- Tokens that wait, and what reading further ones depends on. -/
structure Lookahead where
  cursor : Cursor
  tokens : List Token := []
  /-- How many tokens were taken away. -/
  taken : Nat := 0
  /-- Whether the last token was read. -/
  finished : Bool := false
  /-- How many brackets and braces were opened and not closed; less than zero if too many were
  closed. -/
  depth : Int := 0
  /-- The indentation of the block list or mapping, and those around it. -/
  indent : Int := -1
  outer : List Int := []
  /-- Whether a key may begin here. -/
  keyAllowed : Bool := true
  /-- At most one for each depth. -/
  keys : List (Int × PossibleKey) := []

/-- A step of reading. -/
abbrev Lookahead.Step := Except Failure Lookahead

namespace Lookahead

/-- Where reading goes on. -/
def mark (l : Lookahead) : Mark := l.cursor.mark

/-- The column there. -/
def column (l : Lookahead) : Int := l.cursor.mark.column

/-- Whether it is inside brackets or braces. -/
def inFlow (l : Lookahead) : Bool := l.depth ≠ 0

/-- Refuses the document. -/
def refuse (flaw : Flaw) : Step := .error (.flaw flaw)

/-- Adds a token. -/
def push (l : Lookahead) (kind : TokenKind) (start stop : Mark) : Lookahead :=
  { l with tokens := l.tokens ++ [⟨kind, start, stop⟩] }

/-- Adds a token of some characters, and goes behind them. -/
def pushWidth (l : Lookahead) (kind : TokenKind) (width : Nat) : Lookahead :=
  let after := l.cursor.skip width
  { l.push kind l.mark after.mark with cursor := after }

/-- Adds tokens in front of the token with the given number. -/
def insert (l : Lookahead) (number : Nat) (kinds : List TokenKind) (place : Mark) : Lookahead :=
  let (before, behind) := l.tokens.splitAt (number - l.taken)
  { l with tokens := before ++ kinds.map (fun kind => ⟨kind, place, place⟩) ++ behind }

/-! ## Keys -/

/-- The farthest that a colon may be from the beginning of its key. -/
def keyReach : Nat := 1024

/-- Whether no colon can follow a key any more. -/
def isStale (l : Lookahead) (key : PossibleKey) : Bool :=
  key.mark.line ≠ l.mark.line || keyReach < l.cursor.index - key.index

/-- Forgets the keys that no colon can follow any more. -/
def dropStale (l : Lookahead) : Step :=
  match l.keys.find? fun (_, key) => l.isStale key && key.required with
  | some (_, key) => refuse (.noColon key.mark l.mark)
  | none => .ok { l with keys := l.keys.filter fun (_, key) => !l.isStale key }

/-- The key that may have begun at this depth. -/
def key? (l : Lookahead) : Option PossibleKey :=
  (l.keys.find? fun (depth, _) => depth = l.depth).map (·.2)

/-- Forgets that key. -/
def forgetKey (l : Lookahead) : Lookahead :=
  { l with keys := l.keys.filter fun (depth, _) => depth ≠ l.depth }

/-- Forgets that key, which must not be required. -/
def dropKey (l : Lookahead) : Step :=
  match l.key? with
  | some key => if key.required then refuse (.noColon key.mark l.mark) else .ok l.forgetKey
  | none => .ok l

/-- Notes that a key may begin here. -/
def noteKey (l : Lookahead) : Step := do
  if l.keyAllowed then
    let l ← l.dropKey
    let key : PossibleKey :=
      { number := l.taken + l.tokens.length
        required := !l.inFlow && l.indent = l.column
        index := l.cursor.index
        mark := l.mark }
    return { l with keys := l.keys ++ [(l.depth, key)] }
  else return l

/-! ## Indentation -/

/-- Ends block lists and mappings that are indented more than `column`. -/
def unwind (l : Lookahead) (column : Int) : Lookahead :=
  if l.inFlow then l
  else
    let indents := (l.indent :: l.outer).dropWhile (column < ·)
    let ended := (l.indent :: l.outer).takeWhile (column < ·)
    { l with
      tokens := l.tokens ++ ended.map fun _ => ⟨.blockEnd, l.mark, l.mark⟩
      indent := indents.headD (-1)
      outer := indents.tail }

/-- Begins a block list or mapping, if it is indented more than what is around it. -/
def indentTo (l : Lookahead) (column : Int) : Option Lookahead :=
  if l.indent < column then some { l with indent := column, outer := l.indent :: l.outer } else none

/-- Begins a block list or mapping here, if it is indented more than what is around it. -/
def begin (l : Lookahead) (kind : TokenKind) : Lookahead :=
  match l.indentTo l.column with
  | some l => l.push kind l.mark l.mark
  | none => l

/-! ## Tokens -/

/-- Ends the document. -/
def finish (l : Lookahead) : Step := do
  let l ← (l.unwind (-1)).dropKey
  let l := { l with keyAllowed := false, keys := [], finished := true }
  return l.push .streamEnd l.mark l.mark

/-- Reads a document separator. -/
def separator (l : Lookahead) (kind : TokenKind) : Step := do
  let l ← (l.unwind (-1)).dropKey
  return { l with keyAllowed := false }.pushWidth kind 3

/-- Opens a list in brackets or a mapping in braces. -/
def openFlow (l : Lookahead) (kind : TokenKind) : Step := do
  let l ← l.noteKey
  return { l with depth := l.depth + 1, keyAllowed := true }.pushWidth kind 1

/-- Closes a list in brackets or a mapping in braces. -/
def closeFlow (l : Lookahead) (kind : TokenKind) : Step := do
  let l ← l.dropKey
  return { l with depth := l.depth - 1, keyAllowed := false }.pushWidth kind 1

/-- Reads a comma. -/
def comma (l : Lookahead) : Step := do
  let l ← { l with keyAllowed := true }.dropKey
  return l.pushWidth .comma 1

/-- Reads the hyphen in front of an item. -/
def item (l : Lookahead) : Step := do
  if !l.inFlow && !l.keyAllowed then refuse (.misplacedItem l.mark)
  else
    let l := if l.inFlow then l else l.begin .blockList
    let l ← { l with keyAllowed := true }.dropKey
    return l.pushWidth .item 1

/-- Reads the question mark in front of a key. -/
def key (l : Lookahead) : Step := do
  if !l.inFlow && !l.keyAllowed then refuse (.misplacedKey l.mark)
  else
    let l := if l.inFlow then l else l.begin .blockMapping
    let l ← { l with keyAllowed := !l.inFlow }.dropKey
    return l.pushWidth .key 1

/-- Puts the tokens for a key in front of it, now that a colon follows. -/
def confirm (l : Lookahead) (key : PossibleKey) : Lookahead :=
  let l := { l.forgetKey with keyAllowed := false }
  match if l.inFlow then none else l.indentTo key.mark.column with
  | some l => l.insert key.number [.blockMapping, .key] key.mark
  | none => l.insert key.number [.key] key.mark

/-- Reads a colon. -/
def value (l : Lookahead) : Step := do
  match l.key? with
  | some key => return (l.confirm key).pushWidth .value 1
  | none =>
    if !l.inFlow && !l.keyAllowed then refuse (.misplacedValue l.mark)
    else
      let l := if l.inFlow then l else l.begin .blockMapping
      return { l with keyAllowed := !l.inFlow }.pushWidth .value 1

/-- Reads a scalar in quotes. -/
def quoted (l : Lookahead) : Step := do
  let l ← l.noteKey
  let (codes, after) ← quotedScalar l.cursor
  return { l.push (.scalar (.quoted codes)) l.mark after.mark with
    cursor := after, keyAllowed := false }

/-- Reads a plain scalar. -/
def plain (l : Lookahead) : Step := do
  let l ← l.noteKey
  let s := plainScalar l.inFlow (l.indent + 1) l.cursor
  return { l.push (.scalar (.plain s.text)) l.mark s.stop with
    cursor := s.after, keyAllowed := s.crossesLine }

/-- What stands behind spaces, line ends and comments, and whether there is a line end. A comment goes
from a number sign to the end of its line. -/
def skipBlank (fuel : Nat) (k : Cursor) : Cursor × Bool :=
  let k := k.skipWhile (· = ' ')
  let k := if k.rest.head? = some '#' then k.skipWhile fun c => !isLineEnd c else k
  match fuel with
  | 0 => (k, false)
  | fuel + 1 => if beginsLineEnd k.rest then ((skipBlank fuel k.next).1, true) else (k, false)

/-- Goes to the next token. A byte order mark may begin the document. -/
def skip (l : Lookahead) : Lookahead :=
  let k := if l.cursor.index = 0 ∧ l.cursor.rest.head? = some '\uFEFF' then l.cursor.next else l.cursor
  let (after, crossesLine) := skipBlank k.rest.length k
  { l with cursor := after, keyAllowed := l.keyAllowed || (crossesLine && !l.inFlow) }

/-- Reads the token that begins with the given character. -/
def token (l : Lookahead) (c : Char) (rest : List Char) : Step :=
  let alone := beginsBlank rest
  if l.column = 0 ∧ c = '%' then refuse (.unsupported l.mark)
  else if l.column = 0 ∧ beginsSeparator (c :: rest) then
    l.separator (if c = '-' then .documentStart else .documentEnd)
  else if c = '[' then l.openFlow .openList
  else if c = '\x7b' then l.openFlow .openMapping
  else if c = ']' then l.closeFlow .closeList
  else if c = '\x7d' then l.closeFlow .closeMapping
  else if c = ',' then l.comma
  else if c = '-' ∧ alone then l.item
  else if c = '?' ∧ (l.inFlow ∨ alone) then l.key
  else if c = ':' ∧ (l.inFlow ∨ alone) then l.value
  else if c = '*' ∨ c = '&' ∨ c = '!' ∨ (!l.inFlow ∧ (c = '|' ∨ c = '>')) then
    refuse (.unsupported l.mark)
  else if c = '\'' ∨ c = '"' then l.quoted
  else if beginsPlain l.inFlow (c :: rest) then l.plain
  else refuse (.noToken c l.mark)

/-- Reads the next token. -/
def read (l : Lookahead) : Step := do
  let l ← l.skip.dropStale
  let l := l.unwind l.column
  match l.cursor.rest with
  | [] => l.finish
  | c :: rest => l.token c rest

/-- Whether the first token that waits may yet turn out to begin a key. -/
def isOpen (l : Lookahead) : Bool :=
  match (l.keys.map (·.2.number)).min? with
  | some number => number = l.taken
  | none => false

/-- Reads on until it is certain which token is the next one. -/
def settle (fuel : Nat) (l : Lookahead) : Step :=
  match fuel with
  | 0 => .ok l
  | fuel + 1 =>
    if l.finished then .ok l
    else if l.tokens.isEmpty then l.read >>= settle fuel
    else do
      let l ← l.dropStale
      if l.isOpen then l.read >>= settle fuel else return l

end Lookahead

end Daybook.Yaml
