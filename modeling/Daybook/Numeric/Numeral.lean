/-!
Decimal numerals.

A numeral is a list of digits, the most significant one first. `read` and `write` convert between
numerals and numbers of any size by halving: a numeral of more than `chunk` digits is cut in two, and
so is a number that needs more. Below that bound the conversion is left to a function that is a
parameter of `readWith` and `writeWith`, so that what is asked of it can be stated; `readDigits` and
`writeDigits` are the schoolbook ones.

The cut of a number is estimated from its bit length. The estimate is never more than the number of
its digits (`tenPow_half_le`), which is why the high part is not zero and both parts are smaller
(`div_half_pos`, `div_half_lt`, `mod_half_lt`).
-/

namespace Daybook

/-- A decimal digit. -/
abbrev Digit := Fin 10

/-- Digits, the most significant one first. -/
abbrev Numeral := List Digit

namespace Digit

-- The zero meant here is the literal one, whatever else is in scope.
attribute [local instance (high)] Zero.ofOfNat0

/-- There are digits, so that they have literals. -/
instance (priority := high) neZero : NeZero 10 := ⟨by decide⟩

/-- The digit as a character of ASCII. -/
def toChar (d : Digit) : Char :=
  Char.ofNat (48 + d.val)

/-- The digit that a character of ASCII is. -/
def ofChar? (c : Char) : Option Digit :=
  if h : 48 ≤ c.toNat ∧ c.toNat < 58 then some ⟨c.toNat - 48, by omega⟩ else none

@[simp] theorem ofChar?_toChar (d : Digit) : ofChar? d.toChar = some d := by
  revert d; decide

/-- A character that is a digit is the character of this digit. -/
theorem toChar_of_ofChar? {c : Char} {d : Digit} (h : ofChar? c = some d) : d.toChar = c := by
  unfold ofChar? at h
  split at h
  · next hc =>
    obtain rfl := Option.some.inj h
    simp only [toChar]
    rw [show 48 + (c.toNat - 48) = c.toNat by omega]
    exact Char.ofNat_toNat c
  · cases h

end Digit

namespace Numeral

-- Powers are those of the core library, whatever else is in scope.
attribute [local instance (high)] instPowNat

/-- The longest run of digits that is converted where numbers come from outside. -/
def digitLimit : Nat := 4300

/-- The digits as text. -/
def toChars (ds : Numeral) : List Char :=
  ds.map Digit.toChar

/-- The digits that a text begins with, and the rest of the text. -/
def span : List Char → Numeral × List Char
  | [] => ([], [])
  | c :: cs =>
    match Digit.ofChar? c with
    | some d => (d :: (span cs).1, (span cs).2)
    | none => ([], c :: cs)

/-- The digits that a text begins with, and the rest, are the text. -/
theorem toChars_span (cs : List Char) : toChars (span cs).1 ++ (span cs).2 = cs := by
  induction cs with
  | nil => rfl
  | cons c cs ih =>
    simp only [span]
    split
    · next d h => simp_all [toChars, Digit.toChar_of_ofChar? h]
    · rfl

/-- Zeros in front, up to `count` digits in all. -/
def pad (count : Nat) (ds : Numeral) : Numeral :=
  List.replicate (count - ds.length) 0 ++ ds

/-! ## Schoolbook conversion -/

/-- The number that digits denote. -/
def readDigits (ds : Numeral) : Nat :=
  ds.foldl (fun n d => 10 * n + d.val) 0

/-- The digits of a number, none of them a superfluous zero. -/
def writeDigits (n : Nat) : Numeral :=
  if h : n < 10 then [⟨n, h⟩] else writeDigits (n / 10) ++ [⟨n % 10, Nat.mod_lt n (by decide)⟩]

/-! ## Conversion by halves -/

/-- The largest number of digits that is converted in one step. -/
def chunk : Nat := 1000

/-- The number that digits denote, where `leaf` reads at most `chunk` of them. -/
def readWith (leaf : Numeral → Nat) (ds : Numeral) : Nat :=
  if ds.length ≤ chunk then leaf ds
  else
    let half := ds.length / 2
    readWith leaf (ds.take half) * 10 ^ (ds.length - half) + readWith leaf (ds.drop half)
termination_by ds.length
decreasing_by
  · simp only [List.length_take, chunk] at *; omega
  · simp only [List.length_drop, chunk] at *; omega

/-- How many digits the low part of a number gets: three tenths of half its bit length, which is a
little less than half of its digits. -/
def half (n : Nat) : Nat :=
  (n.log2 + 1) * 3 / 20

/-- The low part has no more digits than the number itself. -/
theorem tenPow_half_le {n : Nat} (h : 4 ≤ n) : 10 ^ half n ≤ n := by
  have hlog : 2 ≤ n.log2 := by
    rw [Nat.le_log2 (by omega)]; omega
  calc 10 ^ half n ≤ 16 ^ half n := Nat.pow_le_pow_left (by decide) _
    _ = 2 ^ (4 * half n) := by rw [Nat.pow_mul]
    _ ≤ 2 ^ n.log2 := Nat.pow_le_pow_right (by decide) (by simp only [half]; omega)
    _ ≤ n := Nat.log2_self_le (by omega)

/-- A number of more than `chunk` digits has a low part that is not empty. -/
theorem half_pos {n : Nat} (h : 10 ^ chunk ≤ n) : 0 < half n := by
  have hn : 2 ^ 7 ≤ n := calc
    2 ^ 7 ≤ 10 ^ 7 := by decide
    _ ≤ 10 ^ chunk := Nat.pow_le_pow_right (by decide) (by decide)
    _ ≤ n := h
  have hlog : 7 ≤ n.log2 := by
    rw [Nat.le_log2 (by omega)]; exact hn
  simp only [half]; omega

/-- The high part of a number of more than `chunk` digits is not zero. -/
theorem div_half_pos {n : Nat} (h : 10 ^ chunk ≤ n) : 0 < n / 10 ^ half n := by
  have hfour : 4 ≤ n := calc
    4 ≤ 10 ^ 1 := by decide
    _ ≤ 10 ^ chunk := Nat.pow_le_pow_right (by decide) (by decide)
    _ ≤ n := h
  exact Nat.div_pos (tenPow_half_le hfour) (Nat.pow_pos (by decide))

/-- The high part is smaller than the number. -/
theorem div_half_lt {n : Nat} (h : 10 ^ chunk ≤ n) : n / 10 ^ half n < n := by
  have hbig : 1 < 10 ^ half n := Nat.one_lt_pow (Nat.ne_of_gt (half_pos h)) (by decide)
  exact Nat.div_lt_self (Nat.lt_of_lt_of_le (Nat.pow_pos (by decide)) h) hbig

/-- The low part is smaller than the number. -/
theorem mod_half_lt {n : Nat} (h : 10 ^ chunk ≤ n) : n % 10 ^ half n < n := by
  have hpos : 0 < 10 ^ half n := Nat.pow_pos (by decide)
  have hle : 10 ^ half n ≤ n := (Nat.div_pos_iff.1 (div_half_pos h)).2
  exact Nat.lt_of_lt_of_le (Nat.mod_lt n hpos) hle

/-- The digits of a number, where `leaf` writes numbers of at most `chunk` digits. -/
def writeWith (leaf : Nat → Numeral) (n : Nat) : Numeral :=
  if n < 10 ^ chunk then leaf n
  else
    writeWith leaf (n / 10 ^ half n) ++ pad (half n) (writeWith leaf (n % 10 ^ half n))
termination_by n
decreasing_by
  · exact div_half_lt (Nat.le_of_not_lt ‹_›)
  · exact mod_half_lt (Nat.le_of_not_lt ‹_›)

/-- The number that digits denote. -/
def read (ds : Numeral) : Nat :=
  readWith readDigits ds

/-- The digits of a number. -/
def write (n : Nat) : Numeral :=
  writeWith writeDigits n

end Numeral

/-- The decimal text of a natural number. -/
def natText (n : Nat) : List Char :=
  (Numeral.write n).toChars

/-- The decimal text of an integer. -/
def intText (n : Int) : List Char :=
  if n < 0 then '-' :: natText n.natAbs else natText n.natAbs

end Daybook
