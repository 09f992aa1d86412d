import Daybook.Calendar.Date

/-!
Dates in ISO 8601 notation.

Accepted are calendar dates (`YYYY-MM-DD`, `YYYYMMDD`) and week dates (`YYYY-Www-D`, `YYYYWwwD`,
the day may be missing and is then Monday). The text has seven, eight or ten bytes; in a text of
ten bytes without hyphens what stands after the date is not looked at.
-/

namespace Daybook.Date

-- The sum of no numbers is the literal zero, whatever else is in scope.
attribute [local instance (high)] Zero.ofOfNat0

/-! ## Days counted through the calendar -/

/-- The number of days before the first of January of a year, counted from the year 1. -/
def daysBefore (year : Nat) : Nat :=
  let y := year - 1
  y * 365 + y / 4 - y / 100 + y / 400

/-- The date that lies `remaining` days after the first of the given month, within the year. -/
def ofDayOfYear? (year remaining : Nat) : Option Date :=
  (List.range 12).findSome? fun i =>
    let before := ((List.range i).map fun j => daysInMonth year (j + 1)).sum
    if before ≤ remaining ∧ remaining - before < daysInMonth year (i + 1) then
      of? year (i + 1) (remaining - before + 1)
    else none

/-- The date with the given number of days before it, if it lies in `year` or next to it. -/
def ofDays? (year days : Nat) : Option Date :=
  [year - 1, year, year + 1].findSome? fun y =>
    if daysBefore y ≤ days ∧ days < daysBefore y + daysInYear y then
      ofDayOfYear? y (days - daysBefore y)
    else none

/-- The weekday of the first of January, zero for Monday. -/
def firstWeekday (year : Nat) : Nat :=
  daysBefore year % 7

/-- The number of weeks of a year: there is a 53rd week if the year begins on a Thursday, or if it
is a leap year and begins on a Wednesday. -/
def weeksInYear (year : Nat) : Nat :=
  if firstWeekday year = 3 ∨ (firstWeekday year = 2 ∧ isLeapYear year) then 53 else 52

/-- The date with the given week and weekday. The first week is the one with the first Thursday. -/
def ofWeek? (year week day : Nat) : Option Date :=
  if 1 ≤ year ∧ 1 ≤ week ∧ week ≤ weeksInYear year ∧ 1 ≤ day ∧ day ≤ 7 then
    let first := daysBefore year
    let weekday := firstWeekday year
    -- Monday of the first week, shifted by a week to stay within the natural numbers.
    let monday := if weekday ≤ 3 then first + 7 - weekday else first + 14 - weekday
    let shifted := monday + (week - 1) * 7 + (day - 1)
    if shifted < 7 then none else ofDays? year (shifted - 7)
  else none

/-! ## Reading -/

/-- The number that exactly `count` digits at the front denote, and the rest. -/
def takeDigits? (count : Nat) (cs : List Char) : Option (Nat × List Char) :=
  let (ds, rest) := Numeral.span (cs.take count)
  if ds.length = count ∧ rest.isEmpty then some (Numeral.read ds, cs.drop count) else none

/-- A hyphen, where the notation has them. -/
def takeHyphen? (hyphens : Bool) (cs : List Char) : Option (List Char) :=
  match hyphens, cs with
  | false, cs => some cs
  | true, '-' :: cs => some cs
  | true, _ => none

/-- What stands after the year: a week with an optional day, or a month and a day. -/
def takeDay? (year : Nat) (hyphens : Bool) : List Char → Option Date
  | 'W' :: cs => do
    let (week, rest) ← takeDigits? 2 cs
    if rest.isEmpty then ofWeek? year week 1
    else
      let rest ← takeHyphen? hyphens rest
      let (day, _) ← takeDigits? 1 rest
      ofWeek? year week day
  | cs => do
    let (month, rest) ← takeDigits? 2 cs
    let rest ← takeHyphen? hyphens rest
    let (day, _) ← takeDigits? 2 rest
    of? year month day

/-- The date that a text in ISO notation names. -/
def ofIso? (s : String) : Option Date := do
  if ¬ [7, 8, 10].contains s.utf8ByteSize then none
  else
    let (year, rest) ← takeDigits? 4 s.toList
    match rest with
    | '-' :: rest => takeDay? year true rest
    | rest => takeDay? year false rest

end Daybook.Date
