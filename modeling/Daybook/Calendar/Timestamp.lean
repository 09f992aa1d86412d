import Daybook.Calendar.Iso
import Daybook.Data.Value
import Daybook.Numeric.Rounded

/-!
Points in time.

A timestamp counts microseconds from the beginning of 1970. It is written in ISO notation with the
offset of universal time; the fraction of a second is left out if there is none. A time may also be
given by a value of any kind, of which `TimeError` says why it is none.
-/

namespace Daybook

/-- Microseconds since the beginning of 1970. -/
structure Timestamp where
  micros : Int
  deriving DecidableEq

namespace Timestamp

-- Powers are those of the core library, whatever else is in scope.
attribute [local instance (high)] instPowNat

/-- The time so many seconds after the beginning of 1970. -/
def ofSeconds (seconds : Int) : Timestamp := ⟨seconds * 1000000⟩

/-- The time so many seconds after the beginning of 1970. The part after the point is rounded to
microseconds. -/
def ofReal? (seconds : Float) : Option Timestamp := do
  let exact ← Binary.ofFloat? seconds
  let whole := if exact.negative then -(-exact.value).floor else exact.value.floor
  let micros ← Binary.ofFloat? ((seconds - Float.ofInt whole) * 1000000)
  return ⟨whole * 1000000 + roundHalfEven micros.value⟩

/-- The number of days before 1970, counted from the year 1. -/
def epochDays : Nat := 719162

/-- The time of day within its day. -/
def inDay (t : Timestamp) : Nat := (t.micros.fmod 86400000000).toNat

/-- The time of day never reaches the next midnight, before 1970 either. -/
theorem inDay_lt (t : Timestamp) : t.inDay < 86400000000 := by
  have hlt := Int.fmod_lt_of_pos t.micros (b := 86400000000) (by decide)
  unfold inDay
  omega

/-- The time in ISO notation, if it lies in the years 1 to 9999. -/
def iso? (t : Timestamp) : Option String := do
  let days := t.micros.fdiv 86400000000 + epochDays
  if days < 0 then none
  else
    let days := days.toNat
    let date ← Date.ofDays? (days * 400 / 146097 + 1) days
    return (DateTime.mk date t.inDay t.inDay_lt).iso "T" ++ "+00:00"

/-! ## Times from outside -/

/-- Why a value is no time. -/
inductive TimeError where
  /-- It is not a number. -/
  | kind
  /-- It is the number that is none. -/
  | undefined
  /-- The seconds do not fit a machine word. -/
  | tooLarge
  /-- The year does not fit half a machine word. -/
  | beyondCalendar
  /-- The year is not one of the years 1 to 9999. -/
  | outsideYears
  deriving DecidableEq

/-- The first and the last second of the years that fit half a machine word. -/
def calendarRange : Int × Int := (-67768040609740800, 67768036191676799)

/-- The time in ISO notation, if there is one. -/
def iso (t : Timestamp) : Except TimeError String :=
  let seconds := t.micros.fdiv 1000000
  if seconds < -(2 ^ (63 : Nat)) ∨ 2 ^ (63 : Nat) ≤ seconds then .error .tooLarge
  else if seconds < calendarRange.1 ∨ calendarRange.2 < seconds then .error .beyondCalendar
  else
    match t.iso? with
    | some text => .ok text
    | none => .error .outsideYears

/-- The time so many seconds after the beginning of 1970 in ISO notation. -/
def isoOfValue (v : Value) : Except TimeError String :=
  match v with
  | .integer n => (ofSeconds n).iso
  | .bool b => (ofSeconds (if b then 1 else 0)).iso
  | .real x =>
    match ofReal? x with
    | some t => t.iso
    | none => .error (if x == x then .tooLarge else .undefined)
  | _ => .error .kind

end Timestamp

end Daybook
