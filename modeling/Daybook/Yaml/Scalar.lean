import Daybook.Data.Value
import Daybook.Text.Pieces

/-!
Plain scalars of YAML 1.1.

A scalar without quotes is null, a truth value, an integer, a number with a point, a date with or without
a time of day, or else text. Integers may be decimal, octal, hexadecimal, binary or in base sixty, with
underscores between their digits; numbers with a point may be decimal or in base sixty. What is written
like a number or a date need not be one: a prefix may have no digits behind it, and a month no such day.
-/

namespace Daybook.Yaml

/-- The spellings of the null value. -/
def nullWords : List String := ["", "~", "null", "Null", "NULL"]

/-- The spellings of truth. -/
def trueWords : List String :=
  ["yes", "Yes", "YES", "true", "True", "TRUE", "on", "On", "ON"]

/-- The spellings of falsehood. -/
def falseWords : List String :=
  ["no", "No", "NO", "false", "False", "FALSE", "off", "Off", "OFF"]

/-- The sign in front of a number, true for a minus, and the rest. -/
def takeSign : List Char → Bool × List Char
  | '-' :: cs => (true, cs)
  | '+' :: cs => (false, cs)
  | cs => (false, cs)

/-- The value of a digit in a base up to sixteen. -/
def digitIn? (base : Nat) (c : Char) : Option Nat :=
  let value :=
    if c.isDigit then some (c.toNat - 48)
    else if 'a' ≤ c ∧ c ≤ 'f' then some (c.toNat - 87)
    else if 'A' ≤ c ∧ c ≤ 'F' then some (c.toNat - 55)
    else none
  value.filter (· < base)

/-- The number that digits denote, underscores skipped; there has to be a digit or an underscore. -/
def digitsIn? (base : Nat) (cs : List Char) : Option Nat := do
  if cs.isEmpty then none
  else
    let digits ← (cs.filter (· ≠ '_')).mapM (digitIn? base)
    return digits.foldl (fun n d => base * n + d) 0

/-- Digits and underscores that begin with a digit. -/
def decimal? (cs : List Char) : Option Nat :=
  match cs with
  | c :: _ => if c.isDigit then digitsIn? 10 cs else none
  | [] => none

/-- A decimal integer that is not too long; the outer option says whether it is written like one. -/
def shortDecimal? (cs : List Char) : Option (Option Nat) :=
  (decimal? cs).map fun n => if (cs.filter (· ≠ '_')).length ≤ Numeral.digitLimit then some n
    else none

/-- The further digits of a number in base sixty: one or two decimal digits for each. -/
def sixtieth? (cs : List Char) : Option Nat := do
  let n ← if cs.length ≤ 2 ∧ ¬ cs.contains '_' then decimal? cs else none
  if n < 60 then some n else none

/-- An integer in base sixty, which has at least two digits and does not begin with zero. -/
def sexagesimal? (cs : List Char) : Option (Option Nat) :=
  match Text.pieces ':' cs with
  | first :: second :: more => do
    if first.head? = some '0' then none
    else
      let start ← shortDecimal? first
      let digits ← (second :: more).mapM sixtieth?
      return start.map fun start => digits.foldl (fun n d => 60 * n + d) start
  | _ => none

/-- The number that the digits behind a prefix denote; underscores alone denote none. -/
def prefixed? (base : Nat) (cs : List Char) : Option (Option Nat) :=
  (digitsIn? base cs).map fun n => if cs.all (· = '_') then none else some n

/-- An integer without its sign. -/
def natural? (cs : List Char) : Option (Option Nat) :=
  match cs with
  | ['0'] => some (some 0)
  | '0' :: 'b' :: rest => prefixed? 2 rest
  | '0' :: 'x' :: rest => prefixed? 16 rest
  | '0' :: rest => (digitsIn? 8 rest).map some
  | cs => (shortDecimal? cs).or (sexagesimal? cs)

/-- The exponent of a number: nothing, or a letter, a sign and digits. -/
def exponent? : List Char → Option Int
  | [] => some 0
  | e :: sign :: c :: cs => do
    if (e = 'e' ∨ e = 'E') ∧ (sign = '+' ∨ sign = '-') ∧ ¬ cs.contains '_' then
      let n ← decimal? (c :: cs)
      return if sign = '-' then -(n : Int) else n
    else none
  | _ => none

/-- A number with the given digits in front of the point and behind it. -/
def magnitude? (whole places : List Char) (exponent : Int) : Option Float := do
  let digits ← if (whole ++ places).isEmpty then none else digitsIn? 10 (whole ++ places)
  let shift := exponent - (places.filter (· ≠ '_')).length
  return Float.ofScientific digits (decide (shift < 0)) shift.natAbs

/-- A number with a point, without its sign. Digits in front of the point may be left out if there are
some behind it. -/
def decimalReal? (cs : List Char) : Option Float := do
  let isDigit := fun (c : Char) => c.isDigit || c = '_'
  let whole := cs.takeWhile isDigit
  let '.' :: after := cs.dropWhile isDigit | none
  let places := after.takeWhile isDigit
  let exponent ← exponent? (after.dropWhile isDigit)
  let first ← (if whole.isEmpty then places else whole).head?
  if first = '_' then none else magnitude? whole places exponent

/-- A number with a point in base sixty, without its sign. -/
def sexagesimalReal? (cs : List Char) : Option Float := do
  let whole := cs.takeWhile (· ≠ '.')
  let '.' :: places := cs.dropWhile (· ≠ '.') | none
  match Text.pieces ':' whole with
  | first :: second :: more => do
    let _ ← decimal? first
    let start ← magnitude? first [] 0
    let digits ← (second :: more).mapM sixtieth?
    let last ← magnitude? ((second :: more).getLastD []) places 0
    let parts := (start :: digits.dropLast.map fun (n : Nat) => n.toFloat) ++ [last]
    let (sum, _) := parts.reverse.foldl
      (fun (sum, base) part => (sum + part * base, base * 60.0)) (0.0, 1.0)
    return sum
  | _ => none

/-- A number with a point; infinity may have a sign, what is no number may not. -/
def real? (cs : List Char) : Option Float :=
  let (negative, rest) := takeSign cs
  let signed := fun (x : Float) => if negative then -x else x
  let word := String.ofList rest
  if [".inf", ".Inf", ".INF"].contains word then some (signed (1.0 / 0.0))
  else if cs = rest ∧ [".nan", ".NaN", ".NAN"].contains word then some (0.0 / 0.0)
  else if cs ≠ rest ∧ rest.head? = some '.' then none
  else ((decimalReal? rest).or (sexagesimalReal? rest)).map signed

/-- Year, month and day, with four digits and one or two digits each, and the rest. -/
def dateParts? (cs : List Char) : Option (Numeral × Numeral × Numeral × List Char) := do
  let (year, rest) := Numeral.span cs
  let '-' :: rest := rest | none
  let (month, rest) := Numeral.span rest
  let '-' :: rest := rest | none
  let (day, rest) := Numeral.span rest
  if year.length = 4 ∧ (month.length = 1 ∨ month.length = 2) ∧ (day.length = 1 ∨ day.length = 2) then
    some (year, month, day, rest)
  else none

/-- What stands between a date and a time of day: a letter, or blanks. -/
def takeBetween : List Char → Option (List Char)
  | 'T' :: cs => some cs
  | 't' :: cs => some cs
  | cs =>
    let rest := cs.dropWhile fun c => c = ' ' || c = '\t'
    if rest.length < cs.length then some rest else none

/-- Hour, minute and second, with one or two digits and two digits each, and the rest. -/
def clockParts? (cs : List Char) : Option (Nat × Nat × Nat × List Char) := do
  let (hour, rest) := Numeral.span cs
  let ':' :: rest := rest | none
  let (minute, rest) := Numeral.span rest
  let ':' :: rest := rest | none
  let (second, rest) := Numeral.span rest
  if (hour.length = 1 ∨ hour.length = 2) ∧ minute.length = 2 ∧ second.length = 2 then
    some (Numeral.read hour, Numeral.read minute, Numeral.read second, rest)
  else none

/-- The microseconds that a fraction denotes, and the rest. Digits behind the sixth one are not looked at. -/
def takeFraction : List Char → Nat × List Char
  | '.' :: cs =>
    let (digits, rest) := Numeral.span cs
    (Numeral.read ((digits ++ List.replicate 6 0).take 6), rest)
  | cs => (0, cs)

/-- The minutes of an offset in hours, or in hours and minutes. -/
def offset? (cs : List Char) : Option Nat := do
  let (hours, rest) := Numeral.span cs
  if hours.length = 1 ∨ hours.length = 2 then
    match rest with
    | [] => some (Numeral.read hours * 60)
    | ':' :: rest =>
      let (minutes, rest) := Numeral.span rest
      if minutes.length = 2 ∧ rest.isEmpty then some (Numeral.read hours * 60 + Numeral.read minutes)
      else none
    | _ => none
  else none

/-- By how many minutes a clock is ahead of universal time, if that is said; the outer option says whether it is
written like that. -/
def zone? (cs : List Char) : Option (Option Int) :=
  if cs.isEmpty then some none
  else
    match cs.dropWhile fun c => c = ' ' || c = '\t' with
    | ['Z'] => some (some 0)
    | '+' :: rest => (offset? rest).map fun minutes => some minutes
    | '-' :: rest => (offset? rest).map fun minutes => some (-minutes)
    | _ => none

/-- What a scalar says. -/
inductive Meaning where
  | value (v : Value)
  /-- As a key, the word that merges other mappings into one. -/
  | merge
  /-- The equals sign, which is text as a key and nothing as a value. -/
  | default
  /-- It is written like a number or a date, but there is no such one. -/
  | impossible

/-- The value that is written, if there is one. -/
def Meaning.ofValue? (v : Option Value) : Meaning :=
  (v.map .value).getD .impossible

/-- What a scalar says that is written like a date, alone or with a time of day. The month and the day of a date alone
have two digits each. -/
def timeMeaning? (cs : List Char) : Option Meaning := do
  let (year, month, day, rest) ← dateParts? cs
  let date := Date.of? (Numeral.read year) (Numeral.read month) (Numeral.read day)
  if rest.isEmpty then
    if month.length = 2 ∧ day.length = 2 then some (.ofValue? (date.map .date)) else none
  else
    let (hour, minute, second, rest) ← clockParts? (← takeBetween rest)
    let (micro, rest) := takeFraction rest
    let clock := date.bind fun date => DateTime.of? date hour minute second micro
    match ← zone? rest with
    | none => some (.ofValue? (clock.map .dateTime))
    | some ahead => some (.ofValue? ((clock.bind fun clock => ZonedTime.of? clock ahead).map .zonedTime))

/-- What a plain scalar says that is no word. -/
def numberMeaning? (cs : List Char) : Option Meaning :=
  let (negative, rest) := takeSign cs
  match real? cs, natural? rest with
  | some x, _ => some (.value (.real x))
  | none, some (some n) => some (.value (.integer (if negative then -(n : Int) else n)))
  | none, some none => some .impossible
  | none, none => timeMeaning? cs

/-- What a plain scalar says. -/
def plainMeaning (cs : List Char) : Meaning :=
  let word := String.ofList cs
  if nullWords.contains word then .value .null
  else if trueWords.contains word then .value (.bool true)
  else if falseWords.contains word then .value (.bool false)
  else if word = "<<" then .merge
  else if word = "=" then .default
  else (numberMeaning? cs).getD (.value (.text word))

end Daybook.Yaml
