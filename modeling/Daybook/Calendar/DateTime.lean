import Daybook.Calendar.Iso

/-!
Dates with a time of day.

A time of day is given by a clock, of which it may be known by how much it is ahead of universal time. Times of
clocks of which this is not known are compared by date and time of day, and the others by when they are, wherever
their clocks stand. Times of the two sorts are not compared with each other.
-/

namespace Daybook

/-- The number of days before a date, counted from the year 1. -/
def Date.days (d : Date) : Nat :=
  (List.range (d.month - 1)).foldl (fun days i => days + daysInMonth d.year (i + 1)) (daysBefore d.year)
    + (d.day - 1)

/-- A date and a time of day, in microseconds since midnight. -/
structure DateTime where
  date : Date
  micros : Nat
  micros_lt : micros < 86400000000
  deriving DecidableEq

namespace DateTime

/-- The time of day with the given parts, if there is one. -/
def of? (date : Date) (hour minute second micro : Nat) : Option DateTime :=
  if h : hour < 24 ∧ minute < 60 ∧ second < 60 ∧ micro < 1000000 then
    some ⟨date, ((hour * 60 + minute) * 60 + second) * 1000000 + micro, by omega⟩
  else none

/-- The hour. -/
def hour (t : DateTime) : Nat := t.micros / 3600000000

/-- The minute within the hour. -/
def minute (t : DateTime) : Nat := t.micros / 60000000 % 60

/-- The second within the minute. -/
def second (t : DateTime) : Nat := t.micros / 1000000 % 60

/-- The microsecond within the second. -/
def micro (t : DateTime) : Nat := t.micros % 1000000

/-- A number that grows with date and time of day. -/
def key (t : DateTime) : Nat := t.date.key * 86400000000 + t.micros

instance : LT DateTime := ⟨fun a b => a.key < b.key⟩

instance (a b : DateTime) : Decidable (a < b) := inferInstanceAs (Decidable (a.key < b.key))

/-- A number with at least the given number of digits. -/
def padded (count n : Nat) : String :=
  String.ofList (Numeral.pad count (Numeral.write n)).toChars

/-- Date and time of day in ISO notation, with a text between them. The fraction of a second is left out if there is
none. -/
def iso (between : String) (t : DateTime) : String :=
  t.date.iso ++ between ++ padded 2 t.hour ++ ":" ++ padded 2 t.minute ++ ":" ++ padded 2 t.second
    ++ if t.micro = 0 then "" else "." ++ padded 6 t.micro

/-- The parts as messages show them. What is zero at the end is left out, but the hour and the minute stay. -/
def parts (t : DateTime) : List String :=
  [t.date.year, t.date.month, t.date.day, t.hour, t.minute].map toString
    ++ if t.micro ≠ 0 then [toString t.second, toString t.micro]
      else if t.second ≠ 0 then [toString t.second] else []

end DateTime

/-- A date and a time of day by a clock that is a number of minutes ahead of universal time. -/
structure ZonedTime where
  clock : DateTime
  ahead : Int
  ahead_bounds : -1440 < ahead ∧ ahead < 1440
  deriving DecidableEq

namespace ZonedTime

/-- The time by a clock so many minutes ahead, if a clock can be. -/
def of? (clock : DateTime) (ahead : Int) : Option ZonedTime :=
  if h : -1440 < ahead ∧ ahead < 1440 then some ⟨clock, ahead, h⟩ else none

/-- When a time is, in microseconds of universal time. -/
def instant (t : ZonedTime) : Int :=
  ((t.clock.date.days * 86400000000 + t.clock.micros : Nat) : Int) - t.ahead * 60000000

instance : LT ZonedTime := ⟨fun a b => a.instant < b.instant⟩

instance (a b : ZonedTime) : Decidable (a < b) := inferInstanceAs (Decidable (a.instant < b.instant))

/-- The time in ISO notation, with a text between date and time of day. -/
def iso (between : String) (t : ZonedTime) : String :=
  t.clock.iso between ++ (if t.ahead < 0 then "-" else "+") ++ DateTime.padded 2 (t.ahead.natAbs / 60)
    ++ ":" ++ DateTime.padded 2 (t.ahead.natAbs % 60)

/-- How messages show by how much the clock is ahead. A clock that is behind is shown as ahead of the day before. -/
def zone (t : ZonedTime) : String :=
  if t.ahead = 0 then "datetime.timezone.utc"
  else
    let before := if t.ahead < 0 then "days=-1, " else ""
    "datetime.timezone(datetime.timedelta(" ++ before ++ s!"seconds={t.ahead % 1440 * 60}))"

end ZonedTime

end Daybook
