import Daybook.Numeric.Numeral

/-!
Calendar dates.

A date lies in one of the years 1 to 9999 of the Gregorian calendar, and the type holds no others.
Dates are ordered by time; `Date.key` is a number that grows with time and determines the date.
-/

namespace Daybook

/-- Whether a year has a 29th of February. -/
def isLeapYear (year : Nat) : Bool :=
  year % 4 = 0 && (year % 100 ≠ 0 || year % 400 = 0)

/-- The number of days of a month. -/
def daysInMonth (year month : Nat) : Nat :=
  if month = 2 then (if isLeapYear year then 29 else 28)
  else if month = 4 ∨ month = 6 ∨ month = 9 ∨ month = 11 then 30
  else 31

/-- The number of days of a year. -/
def daysInYear (year : Nat) : Nat :=
  if isLeapYear year then 366 else 365

/-- A date of the calendar. -/
structure Date where
  year : Nat
  month : Nat
  day : Nat
  year_bounds : 1 ≤ year ∧ year ≤ 9999
  month_bounds : 1 ≤ month ∧ month ≤ 12
  day_bounds : 1 ≤ day ∧ day ≤ daysInMonth year month
  deriving DecidableEq

namespace Date

/-- The date with the given parts, if there is one. -/
def of? (year month day : Nat) : Option Date :=
  if h : (1 ≤ year ∧ year ≤ 9999) ∧ (1 ≤ month ∧ month ≤ 12)
      ∧ 1 ≤ day ∧ day ≤ daysInMonth year month then
    some ⟨year, month, day, h.1, h.2.1, h.2.2⟩
  else none

/-- A number that grows with time. -/
def key (d : Date) : Nat :=
  d.year * 10000 + d.month * 100 + d.day

instance : LE Date := ⟨fun a b => a.key ≤ b.key⟩

instance : LT Date := ⟨fun a b => a.key < b.key⟩

instance (a b : Date) : Decidable (a ≤ b) := inferInstanceAs (Decidable (a.key ≤ b.key))

instance (a b : Date) : Decidable (a < b) := inferInstanceAs (Decidable (a.key < b.key))

theorem le_def {a b : Date} : a ≤ b ↔ a.key ≤ b.key := Iff.rfl

theorem lt_def {a b : Date} : a < b ↔ a.key < b.key := Iff.rfl

/-- No month is longer than 31 days, which is what makes the key of a date injective. -/
theorem daysInMonth_le (year month : Nat) : daysInMonth year month ≤ 31 := by
  unfold daysInMonth; split <;> (try split) <;> omega

/-- The key determines the date. -/
theorem key_injective {a b : Date} (h : a.key = b.key) : a = b := by
  obtain ⟨y, m, d, hy, hm, hd⟩ := a
  obtain ⟨y', m', d', hy', hm', hd'⟩ := b
  have h₁ := daysInMonth_le y m
  have h₂ := daysInMonth_le y' m'
  simp only [key] at h
  obtain ⟨rfl, rfl, rfl⟩ : y = y' ∧ m = m' ∧ d = d' := by omega
  rfl

/-- Year, month and day with hyphens between them, with four, two and two digits. -/
def isoChars (d : Date) : List Char :=
  (Numeral.pad 4 (Numeral.write d.year)).toChars
    ++ '-' :: (Numeral.pad 2 (Numeral.write d.month)).toChars
    ++ '-' :: (Numeral.pad 2 (Numeral.write d.day)).toChars

/-- The date in ISO notation. -/
def iso (d : Date) : String :=
  String.ofList d.isoChars

end Date

end Daybook
