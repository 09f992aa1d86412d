import Daybook.Money.Basic
import Daybook.Proofs.Guarded.Step
import Daybook.Proofs.Numeric.Decimal

/-!
Conversions below the limit.

A run of more than `digitLimit` digits is not converted in one step, neither to a number nor back. The
conversions by halves never ask for that: what they leave to one step has at most `chunk` digits
(`read_eq`, `write_eq`). Hence a literal of any length has a value (`decimal_toChars`) and an amount of any
size a text (`amount_eq`).
-/

namespace Daybook.Guarded

open Numeral (chunk digitLimit half pad)

-- Powers are those of the core library, whatever else is in scope.
attribute [local instance (high)] instPowNat

/-! ## Reading -/

/-- The number that digits denote, converted in one step. -/
def readDigits (ds : Numeral) : Guarded Nat :=
  if ds.length ≤ digitLimit then .ok (Numeral.readDigits ds) else .error .digits

/-- The number that digits denote. -/
def read (ds : Numeral) : Guarded Nat :=
  if ds.length ≤ chunk then readDigits ds
  else do
    let half := ds.length / 2
    let high ← read (ds.take half)
    let low ← read (ds.drop half)
    return high * 10 ^ (ds.length - half) + low
termination_by ds.length
decreasing_by
  · simp only [List.length_take, chunk] at *; omega
  · simp only [List.length_drop, chunk] at *; omega

/-- What is converted in one step stays within the limit on digits. -/
theorem chunk_le_digitLimit : chunk ≤ digitLimit := by decide

/-- So digits that fit in one step are read. -/
theorem readDigits_of_le {ds : Numeral} (h : ds.length ≤ chunk) :
    readDigits ds = .ok (Numeral.readDigits ds) :=
  if_pos (h.trans chunk_le_digitLimit)

/-- **Digits of any number are read.** -/
theorem read_eq (ds : Numeral) : read ds = .ok (Numeral.read ds) := by
  fun_induction read ds with
  | case1 ds hle => rw [readDigits_of_le hle, Numeral.read, Numeral.readWith_of_le hle]
  | case2 ds hlt half ihhigh ihlow =>
    have hread : Numeral.read ds = Numeral.read (ds.take half) * 10 ^ (ds.length - half)
        + Numeral.read (ds.drop half) := Numeral.readWith_of_lt (Nat.lt_of_not_le hlt) _
    rw [ihhigh, ihlow, hread]
    rfl

/-- A number that can be divided by. -/
def divisor (d : Nat) : Guarded Nat :=
  if d = 0 then .error .divisor else .ok d

/-- A divisor above zero is accepted. -/
theorem divisor_of_pos {d : Nat} (h : 0 < d) : divisor d = .ok d :=
  if_neg (Nat.ne_of_gt h)

/-- The exact value of a text. -/
def decimal (cs : List Char) : Guarded Rat :=
  match Decimal.ofChars? cs with
  | none => .error (.literal ⟨String.ofList cs⟩)
  | some d => do
    let units ← read (d.whole ++ d.places)
    let scale ← divisor (10 ^ d.places.length)
    let magnitude := mkRat units scale
    return if d.negative then -magnitude else magnitude

/-- **Literals of any length have a value.** -/
theorem decimal_toChars (d : Decimal) : decimal d.toChars = .ok d.value := by
  have hpos : 0 < 10 ^ d.places.length := Nat.pow_pos (by decide)
  unfold decimal
  rw [Decimal.ofChars?_toChars]
  show (read (d.whole ++ d.places) >>= _) = _
  rw [bind_of_eq (read_eq _), bind_of_eq (divisor_of_pos hpos)]
  rfl

/-! ## Writing -/

/-- The digits of a number, converted in one step. -/
def writeDigits (n : Nat) : Guarded Numeral :=
  if n < 10 ^ digitLimit then .ok (Numeral.writeDigits n) else .error .digits

/-- The digits of a number. -/
def write (n : Nat) : Guarded Numeral :=
  if n < 10 ^ chunk then writeDigits n
  else do
    let _ ← divisor (10 ^ half n)
    let high ← write (n / 10 ^ half n)
    let low ← write (n % 10 ^ half n)
    return high ++ pad (half n) low
termination_by n
decreasing_by
  · exact Numeral.div_half_lt (Nat.le_of_not_lt ‹_›)
  · exact Numeral.mod_half_lt (Nat.le_of_not_lt ‹_›)

/-- Numbers that fit in one step are written. -/
theorem writeDigits_of_lt {n : Nat} (h : n < 10 ^ chunk) :
    writeDigits n = .ok (Numeral.writeDigits n) :=
  if_pos (Nat.lt_of_lt_of_le h (Nat.pow_le_pow_right (by decide) chunk_le_digitLimit))

/-- **Numbers of any size are written.** -/
theorem write_eq (n : Nat) : write n = .ok (Numeral.write n) := by
  -- The definitions are unfolded and not rewritten with, which would compute `10 ^ chunk`.
  induction n using write.induct with
  | case1 n hlt =>
    have hguarded : write n = writeDigits n := by
      unfold write
      exact if_pos hlt
    rw [hguarded, writeDigits_of_lt hlt, Numeral.write, Numeral.writeWith_of_lt hlt]
  | case2 n hlt ihhigh ihlow =>
    have hguarded : write n = (do
        let _ ← divisor (10 ^ half n)
        let high ← write (n / 10 ^ half n)
        let low ← write (n % 10 ^ half n)
        return high ++ pad (half n) low) := by
      conv => lhs; unfold write
      exact if_neg hlt
    have hwrite : Numeral.write n = Numeral.write (n / 10 ^ half n)
        ++ pad (half n) (Numeral.write (n % 10 ^ half n)) :=
      Numeral.writeWith_of_le (Nat.le_of_not_lt hlt) _
    rw [hguarded, ihhigh, ihlow, divisor_of_pos (Nat.pow_pos (by decide)), hwrite]
    rfl

/-- The decimal text of a natural number. -/
def natText (n : Nat) : Guarded (List Char) := do
  let digits ← write n
  return digits.toChars

/-- Numbers of any size are written, because halving comes down to numbers that fit in one step. -/
theorem natText_eq (n : Nat) : natText n = .ok (Daybook.natText n) := by
  rw [natText, bind_of_eq (write_eq _)]
  rfl

/-- The decimal text of an integer. -/
def intText (n : Int) : Guarded (List Char) := do
  let digits ← natText n.natAbs
  return if n < 0 then '-' :: digits else digits

/-- Numbers with a sign are written. -/
theorem intText_eq (n : Int) : intText n = .ok (Daybook.intText n) := by
  rw [intText, bind_of_eq (natText_eq _)]
  rfl

/-! ## Amounts -/

/-- The text of a number of units of the last of `places` decimal places, without zeros at the end. -/
def pointed (places units : Nat) : Guarded (List Char) := do
  let digits ← write units
  if places = 0 then return digits.toChars
  else
    let digits := pad (places + 1) digits
    let whole := digits.take (digits.length - places)
    let fraction := Amount.withoutZeros (digits.drop (digits.length - places))
    return if fraction.isEmpty then Numeral.toChars whole
    else Numeral.toChars whole ++ '.' :: fraction.toChars

/-- Amounts with places behind the point are written, by dividing by a power of ten. -/
theorem pointed_eq (places units : Nat) :
    pointed places units = .ok (Amount.pointed places units) := by
  rw [pointed, bind_of_eq (write_eq _), Amount.pointed]
  split
  · rfl
  · rfl

/-- The text of an amount. -/
def amount (q : Rat) : Guarded String :=
  match Amount.places? q.den with
  | some places => do
    let denominator ← divisor q.den
    let digits ← pointed places (q.num.natAbs * (10 ^ places / denominator))
    return String.ofList ((if q < 0 then ['-'] else []) ++ digits)
  | none => do
    let numerator ← intText q.num
    let denominator ← natText q.den
    return String.ofList (numerator ++ '/' :: denominator)

/-- **Amounts of any size have a text.** -/
theorem amount_eq (q : Rat) : amount q = .ok (Amount.text q) := by
  unfold amount Amount.text Amount.toChars
  cases Amount.places? q.den with
  | some places =>
    show (divisor q.den >>= _) = _
    rw [bind_of_eq (divisor_of_pos q.den_pos), bind_of_eq (pointed_eq _ _)]
    rfl
  | none =>
    show (intText q.num >>= _) = _
    rw [bind_of_eq (intText_eq _), bind_of_eq (natText_eq _)]
    rfl

/-- The text of an amount with its currency. -/
def money (m : Money) : Guarded String := do
  let text ← amount m.amount
  return text ++ " " ++ m.currency.code

/-- Every amount of money is written. -/
theorem money_eq (m : Money) : money m = .ok m.text := by
  rw [money, bind_of_eq (amount_eq _)]
  rfl

end Daybook.Guarded
