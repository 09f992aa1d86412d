import Daybook.Text.DecimalDigit

/-!
Words of a command line.

A word is an argument or names an option. An option is named by its spelling, or by the beginning of a
long spelling if no other option begins so, and a value may follow an equals sign. What directly
follows a short spelling is a value too, unless it only repeats the letter. A negative number, and
what has a space in it and names no option, is an argument.
-/

namespace Daybook.CommandLine

/-- The options. -/
inductive Flag where
  | help
  | logLevel
  | config
  | all
  | asOf
  deriving DecidableEq

/-- Whether an option has a value. -/
def Flag.takesValue : Flag → Bool
  | .help | .all => false
  | .logLevel | .config | .asOf => true

/-- Options by their spelling. -/
abbrev Spellings := List (String × Flag)

/-- What a word says. -/
inductive Word where
  | argument
  /-- An option, and its value if the word has one. -/
  | option (flag : Flag) (value : Option String)
  /-- It looks like an option, but there is none. -/
  | unknown
  /-- Several options begin so. -/
  | ambiguous
  deriving DecidableEq

namespace Word

/-- The word that ends the options. -/
def separator : String := "--"

/-- What stands before the first equals sign, and what after it. -/
def cut (cs : List Char) : List Char × Option (List Char) :=
  match cs.dropWhile (· ≠ '=') with
  | [] => (cs, none)
  | _ :: value => (cs.takeWhile (· ≠ '='), some value)

/-- Digits of any script, at least one. -/
def isNumber (cs : List Char) : Bool :=
  !cs.isEmpty && cs.all fun c => (Text.decimalDigit? c).isSome

/-- A number after a minus, with or without a point; a line may end after it. -/
def isNegativeNumber : List Char → Bool
  | '-' :: cs =>
    let cs := if cs.getLast? = some '\n' then cs.dropLast else cs
    isNumber cs ||
      match cs.dropWhile (· ≠ '.') with
      | '.' :: places =>
        let whole := cs.takeWhile (· ≠ '.')
        isNumber places && (whole.isEmpty || isNumber whole)
      | _ => false
  | _ => false

/-- The letter of a short spelling, which is a hyphen and one letter. -/
def shortLetter? : List Char → Option Char
  | ['-', letter] => some letter
  | _ => none

/-- The value that stands behind a spelling. The letter of a short spelling may be repeated there, at
least once, which says nothing more. -/
def valueBehind (spelling value : List Char) : Option (List Char) :=
  match shortLetter? spelling with
  | some letter => if !value.isEmpty && value.all (· = letter) then none else some value
  | none => some value

/-- An option with a value as characters. -/
def optionOf (flag : Flag) (value : Option (List Char)) : Word :=
  option flag (value.map String.ofList)

/-- The options that a word of at least two characters may stand for, if it is no spelling. -/
def candidates (spellings : Spellings) (cs : List Char) : List Word :=
  match cs with
  | '-' :: '-' :: _ =>
    let (name, value) := cut cs
    (spellings.filter fun s => name.isPrefixOf s.1.toList).map fun s => optionOf s.2 value
  | _ =>
    (spellings.filter fun s => s.1.toList = cs.take 2).map fun s =>
      optionOf s.2 (valueBehind s.1.toList (cs.drop 2))

/-- The option with the given spelling. -/
def spelled? (spellings : Spellings) (cs : List Char) (value : Option (List Char)) : Option Word :=
  (spellings.find? fun s => s.1.toList = cs).map fun s => optionOf s.2 (value.bind (valueBehind cs))

/-- What a word says that begins with a hyphen. -/
def ofHyphen (spellings : Spellings) (cs : List Char) : Word :=
  let (name, value) := cut cs
  let spelled := (spelled? spellings cs none).or
    (if value.isSome then spelled? spellings name value else none)
  match spelled with
  | some word => word
  | none =>
    if cs.length = 1 then argument
    else
      match candidates spellings cs with
      | [word] => word
      | _ :: _ => ambiguous
      | [] => if isNegativeNumber cs || cs.contains ' ' then argument else unknown

/-- What a word says where options have the given spellings. -/
def of (spellings : Spellings) (s : String) : Word :=
  if s.toList.head? = some '-' then ofHyphen spellings s.toList else argument

end Word

end Daybook.CommandLine
