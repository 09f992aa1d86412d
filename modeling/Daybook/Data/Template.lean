import Daybook.Data.Value
import Daybook.Numeric.Rounded

/-!
Texts with places for values.

A place begins with a percent sign. Behind it there may be a key in parentheses, flags, a width, a
precision and one of three letters that mean nothing, and a letter that says how the value is written.
Values are taken in order, or looked up by key; a width or a precision may be a value, too. Two percent
signs stand for one. All values have to be used, unless they can be looked up.
-/

namespace Daybook

/-- Why the places of a template cannot be filled. -/
inductive TemplateError where
  /-- The template ends inside a place. -/
  | unfinished
  /-- No value is written with this letter. -/
  | unknownLetter (c : Char)
  /-- A width or a precision is too large to count. -/
  | tooWide
  /-- There is a key, but values cannot be looked up. -/
  | noKeys
  /-- Nothing has the given key. -/
  | unknownKey
  /-- There are fewer values than places. -/
  | tooFew
  /-- There are more values than places. -/
  | tooMany
  /-- A value is not of the kind that the place is for. -/
  | kind
  /-- A number is too large for its place. -/
  | tooLarge
  /-- A number has no digits, or too many. -/
  | unwritable
  deriving DecidableEq

/-- The values for a template that were not used. -/
inductive Template.Supply where
  | several (values : List Value)
  | one (v : Value)
  | used

/-- How a value is written. -/
structure Template.Place where
  /-- Whether the text stands on the left of its place. -/
  left : Bool := false
  /-- Whether a number has a plus if it has no minus. -/
  plus : Bool := false
  /-- Whether a number has a space if it has no sign. -/
  space : Bool := false
  /-- Whether a number is written in its longer form. -/
  long : Bool := false
  /-- Whether the place is filled with zeros. -/
  zeros : Bool := false
  width : Nat := 0
  precision : Option Nat := none

namespace Template

-- Powers are those of the core library, whatever else is in scope.
attribute [local instance (high)] instPowNat

/-- What reading a place depends on: the rest of the template, and the values. -/
structure State where
  rest : List Char
  supply : Supply

/-- Steps that may fail. -/
abbrev Filling := StateT State (Except TemplateError)

/-- The next value. -/
def nextValue : Filling Value := do
  let s ← get
  match s.supply with
  | .several (v :: vs) => set { s with supply := .several vs }; return v
  | .one v => set { s with supply := .used }; return v
  | _ => throw .tooFew

/-- The next value, which has to be an integer. -/
def nextInteger : Filling Int := do
  match ← nextValue with
  | .integer n => return n
  | .bool b => return if b then 1 else 0
  | _ => throw .kind

/-- The next character, if it has a property. -/
def takeIf (p : Char → Bool) : Filling (Option Char) := do
  let s ← get
  match s.rest with
  | c :: rest => if p c then set { s with rest }; return some c else return none
  | [] => return none

/-- The decimal number that comes next, which must not be more than `limit`. -/
def number (limit : Nat) : Filling (Option Nat) := do
  let s ← get
  let (digits, rest) := Numeral.span s.rest
  if digits.isEmpty then return none
  else if limit < Numeral.read digits then throw .tooWide
  else
    set { s with rest }
    return some (Numeral.read digits)

/-- The largest width. -/
def widthLimit : Nat := 2 ^ (63 : Nat) - 1

/-- The largest precision. -/
def precisionLimit : Nat := 2 ^ (31 : Nat) - 1

/-- A key up to its closing parenthesis, where `depth` parentheses are open, and what follows. -/
def splitKey (depth : Nat) : List Char → Option (List Char × List Char)
  | [] => none
  | c :: cs =>
    if c = ')' ∧ depth = 1 then some ([], cs)
    else
      let depth := if c = '(' then depth + 1 else if c = ')' then depth - 1 else depth
      (splitKey depth cs).map fun (key, rest) => (c :: key, rest)

/-- Whether values can be looked up in a value. Texts and tuples only have an order. -/
def isLookup : Value → Bool
  | .mapping _ => true
  | .list _ => true
  | .bytes _ => true
  | _ => false

/-- The value with a key. -/
def lookup (source : Value) (key : String) : Except TemplateError Value :=
  match source with
  | .mapping entries =>
    match entries.find? fun entry => entry.1.text? = some key with
    | some (_, v) => .ok v
    | none => .error .unknownKey
  | .list _ => .error .kind
  | .bytes _ => .error .kind
  | _ => .error .noKeys

/-- Reads a key, if there is one, and looks its value up. -/
def readKey (source : Value) : Filling Unit := do
  if (← takeIf (· = '(')).isSome then
    if !isLookup source then throw .noKeys
    match splitKey 1 (← get).rest with
    | none => throw .unfinished
    | some (key, rest) =>
      let v ← lookup source (String.ofList key)
      set { rest, supply := Supply.one v : State }

/-- The flags of places. -/
def flags : List Char := ['-', '+', ' ', '#', '0']

/-- Reads flags. -/
def readFlags (fuel : Nat) (p : Place) : Filling Place := do
  match fuel, ← takeIf flags.contains with
  | fuel + 1, some '-' => readFlags fuel { p with left := true }
  | fuel + 1, some '+' => readFlags fuel { p with plus := true }
  | fuel + 1, some ' ' => readFlags fuel { p with space := true }
  | fuel + 1, some '#' => readFlags fuel { p with long := true }
  | fuel + 1, some '0' => readFlags fuel { p with zeros := true }
  | _, _ => return p

/-- Reads a width, if there is one. A negative one says that the text stands on the left. -/
def readWidth (p : Place) : Filling Place := do
  if (← takeIf (· = '*')).isSome then
    let n ← nextInteger
    if n < -(2 ^ (63 : Nat)) ∨ (widthLimit : Int) < n then throw .tooLarge
    return { p with width := n.natAbs, left := p.left || n < 0 }
  else return { p with width := (← number widthLimit).getD 0 }

/-- Reads a precision, if there is one. -/
def readPrecision (p : Place) : Filling Place := do
  if (← takeIf (· = '.')).isSome then
    if (← takeIf (· = '*')).isSome then
      let n ← nextInteger
      if n < -(2 ^ (31 : Nat)) ∨ (precisionLimit : Int) < n then throw .tooLarge
      return { p with precision := some n.toNat }
    else return { p with precision := some ((← number precisionLimit).getD 0) }
  else return p

/-! ## Writing values -/

/-- A text in its place: a sign and a marker of the base come first, `body` may have zeros in front. -/
def Place.fill (p : Place) (fillZeros : Bool) (head body : List Char) : List Char :=
  let missing := p.width - (head.length + body.length)
  if p.left then head ++ body ++ List.replicate missing ' '
  else if fillZeros then head ++ List.replicate missing '0' ++ body
  else List.replicate missing ' ' ++ head ++ body

/-- A text that is cut to the precision. -/
def Place.text (p : Place) (cs : List Char) : List Char :=
  p.fill false [] (match p.precision with
    | some count => cs.take count
    | none => cs)

/-- The sign of a number. -/
def Place.sign (p : Place) (negative : Bool) : List Char :=
  if negative then ['-'] else if p.plus then ['+'] else if p.space then [' '] else []

/-- The integer that a value is. -/
def integer? : Value → Option Int
  | .integer n => some n
  | .bool b => some (if b then 1 else 0)
  | _ => none

/-- The integer that is left of a number without its places. -/
def truncated (v : Value) : Except TemplateError Int :=
  match v with
  | .real x =>
    match Binary.ofFloat? x with
    | some b => .ok (b.value.num.tdiv b.value.den)
    | none => .error (if x == x then .tooLarge else .unwritable)
  | v =>
    match v.number? with
    | some q => .ok (q.num.tdiv q.den)
    | none => .error .kind

/-- A number as a double. -/
def double (v : Value) : Except TemplateError Float :=
  match v with
  | .real x => .ok x
  | v =>
    match v.number? with
    | some q =>
      let x := Float.ofInt q.num / Float.ofNat q.den
      if x.isFinite then .ok x else .error .tooLarge
    | none => .error .kind

/-- An integer in a base, with a marker of the base in the longer form. -/
def Place.integer (p : Place) (marker digits : List Char) (negative : Bool) : List Char :=
  let zeros := List.replicate (p.precision.getD 0 - digits.length) '0'
  p.fill p.zeros (p.sign negative ++ if p.long then marker else []) (zeros ++ digits)

/-- A decimal integer. -/
def Place.decimal (p : Place) (v : Value) : Except TemplateError (List Char) := do
  let n ← truncated v
  let digits := natText n.natAbs
  if Numeral.digitLimit < digits.length then .error .unwritable
  else return p.integer [] digits (n < 0)

/-- An integer in base eight or sixteen. -/
def Place.based (p : Place) (base : Nat) (marker : List Char) (v : Value) :
    Except TemplateError (List Char) :=
  match integer? v with
  | some n => .ok (p.integer marker (Nat.toDigits base n.natAbs) (n < 0))
  | none => .error .kind

/-- The digits of a number with a point, without its sign. -/
def Place.magnitude (p : Place) (letter : Char) (q : Rat) : List Char :=
  let precision := p.precision.getD 6
  if letter = 'e' then Rounded.scientific precision p.long q
  else if letter = 'f' then Rounded.fixed precision p.long q
  else Rounded.general precision p.long q

/-- A number with a point. -/
def Place.real (p : Place) (letter : Char) (v : Value) : Except TemplateError (List Char) := do
  let x ← double v
  let (negative, body) := match Binary.ofFloat? x with
    | some b => (b.negative, p.magnitude letter (if b.negative then -b.value else b.value))
    | none => (decide (x < 0), if x == x then "inf".toList else "nan".toList)
  return p.fill p.zeros (p.sign negative) body

/-- A character, which may be given by its code point. -/
def Place.character (p : Place) (v : Value) : Except TemplateError (List Char) :=
  match v with
  | .text s => if s.length = 1 then .ok (p.fill false [] s.toList) else .error .kind
  | v =>
    match integer? v with
    | some n =>
      if 0 ≤ n ∧ n < 0x110000 then .ok (p.fill false [] [Char.ofNat n.toNat]) else .error .tooLarge
    | none => .error .kind

/-- Letters as capitals. -/
def inCapitals (cs : List Char) : List Char := cs.map Char.toUpper

/-- A value as the letter of its place says. -/
def Place.write (p : Place) (letter : Char) (v : Value) : Except TemplateError (List Char) :=
  match letter with
  | 's' => .ok (p.text v.plain.toList)
  | 'r' => .ok (p.text v.literal.toList)
  | 'a' => .ok (p.text (Text.asciiOnly v.literal.toList))
  | 'd' | 'i' | 'u' => p.decimal v
  | 'o' => p.based 8 ['0', 'o'] v
  | 'x' => p.based 16 ['0', 'x'] v
  | 'X' => (p.based 16 ['0', 'x'] v).map inCapitals
  | 'e' | 'f' | 'g' => p.real letter v
  | 'E' | 'F' | 'G' => (p.real letter.toLower v).map inCapitals
  | 'c' => p.character v
  | c => .error (.unknownLetter c)

/-! ## Templates -/

/-- Fills the place that begins here, behind its percent sign. -/
def fillPlace (source : Value) : Filling (List Char) := do
  if (← takeIf (· = '%')).isSome then return ['%']
  readKey source
  let p ← readFlags (← get).rest.length {}
  let p ← readPrecision (← readWidth p)
  let _ ← takeIf ['h', 'l', 'L'].contains
  match ← takeIf fun _ => true with
  | none => throw .unfinished
  | some letter => p.write letter (← nextValue)

/-- Fills the places of what is left of a template. -/
def fillAll (source : Value) (fuel : Nat) : Filling (List Char) := do
  match fuel, ← takeIf fun _ => true with
  | fuel + 1, some c =>
    let text ← if c = '%' then fillPlace source else pure [c]
    return text ++ (← fillAll source fuel)
  | _, _ => return []

/-- The values that a value offers: a tuple its items, any other one itself. -/
def Supply.of : Value → Supply
  | .tuple items => .several items
  | v => .one v

/-- Whether no value is left. -/
def Supply.isUsed : Supply → Bool
  | .several values => values.isEmpty
  | .one _ => false
  | .used => true

/-- The text of a template with values in its places. -/
def format (template : String) (values : Value) : Except TemplateError String := do
  let chars := template.toList
  let (text, s) ← (fillAll values (chars.length + 1)).run ⟨chars, .of values⟩
  if s.supply.isUsed || isLookup values then return String.ofList text else .error .tooMany

end Template

end Daybook
