import Mathlib.Data.List.Induction
import Mathlib.Tactic.Ring
import Daybook.Numeric.Numeral

/-!
Numerals denote numbers.

The digits of a numeral are its positions in base ten (`readDigits_append`), and writing undoes reading
up to superfluous zeros (`readDigits_writeDigits`). The conversions by halves are the schoolbook ones:
`readWith_eq` and `writeWith_eq` say so for whatever converts the pieces, as long as it is right on
pieces of at most `chunk` digits.
-/

namespace Daybook.Numeral

/-! ## Reading -/

/-- A digit at the end makes the others count ten times as much. -/
theorem readDigits_concat (ds : Numeral) (d : Digit) :
    readDigits (ds ++ [d]) = 10 * readDigits ds + d.val := by
  simp only [readDigits, List.foldl_append, List.foldl_cons, List.foldl_nil]

/-- Digits behind others shift them to the left. -/
theorem readDigits_append (ds es : Numeral) :
    readDigits (ds ++ es) = readDigits ds * 10 ^ es.length + readDigits es := by
  induction es using List.reverseRecOn with
  | nil =>
    rw [List.append_nil, List.length_nil, pow_zero, mul_one]
    rfl
  | append_singleton es d ih =>
    rw [← List.append_assoc, readDigits_concat, ih, readDigits_concat, List.length_append,
      List.length_singleton, pow_succ]
    ring

/-- Zeros are worth nothing. -/
theorem readDigits_replicate_zero (count : Nat) :
    readDigits (List.replicate count 0) = 0 := by
  induction count with
  | zero => rfl
  | succ count ih =>
    rw [List.replicate_succ', readDigits_concat, ih]
    rfl

/-- Zeros in front do not count. -/
theorem readDigits_pad (count : Nat) (ds : Numeral) :
    readDigits (pad count ds) = readDigits ds := by
  rw [pad, readDigits_append, readDigits_replicate_zero, zero_mul, zero_add]

/-- A number is padded up to the given count of digits, and never cut. -/
theorem length_pad (count : Nat) (ds : Numeral) : (pad count ds).length = max count ds.length := by
  rw [pad, List.length_append, List.length_replicate]
  omega

/-- Few digits are read in one step. -/
theorem readWith_of_le {ds : Numeral} (h : ds.length ≤ chunk) (leaf : Numeral → Nat) :
    readWith leaf ds = leaf ds := by
  unfold readWith
  exact if_pos h

/-- More digits are read in two halves. -/
theorem readWith_of_lt {ds : Numeral} (h : chunk < ds.length) (leaf : Numeral → Nat) :
    readWith leaf ds = readWith leaf (ds.take (ds.length / 2)) * 10 ^ (ds.length - ds.length / 2)
      + readWith leaf (ds.drop (ds.length / 2)) := by
  conv => lhs; unfold readWith
  exact if_neg (Nat.not_le_of_lt h)

/-- **Reading by halves is reading.** -/
theorem readWith_eq {leaf : Numeral → Nat}
    (hleaf : ∀ ds : Numeral, ds.length ≤ chunk → leaf ds = readDigits ds) (ds : Numeral) :
    readWith leaf ds = readDigits ds := by
  fun_induction readWith leaf ds with
  | case1 ds hle => exact hleaf ds hle
  | case2 ds _ half ihhigh ihlow =>
    calc readWith leaf (ds.take half) * 10 ^ (ds.length - half) + readWith leaf (ds.drop half)
        = readDigits (ds.take half) * 10 ^ (ds.drop half).length + readDigits (ds.drop half) := by
          rw [ihhigh, ihlow, List.length_drop]
      _ = readDigits ds := by rw [← readDigits_append, List.take_append_drop]

/-- Reading by halves is reading from the left. -/
theorem read_eq (ds : Numeral) : read ds = readDigits ds :=
  readWith_eq (fun _ _ => rfl) ds

/-! ## Writing -/

/-- A number below ten is a digit. -/
theorem writeDigits_of_lt {n : Nat} (h : n < 10) : writeDigits n = [⟨n, h⟩] := by
  rw [writeDigits, dif_pos h]

/-- A larger number is written in front of its last digit. -/
theorem writeDigits_of_le {n : Nat} (h : 10 ≤ n) :
    writeDigits n = writeDigits (n / 10) ++ [⟨n % 10, Nat.mod_lt n (by decide)⟩] := by
  rw [writeDigits, dif_neg (by omega)]

theorem writeDigits_ne_nil (n : Nat) : writeDigits n ≠ [] := by
  rw [writeDigits]
  split
  · exact List.cons_ne_nil _ _
  · simp

/-- **What is written is read back.** -/
theorem readDigits_writeDigits (n : Nat) : readDigits (writeDigits n) = n := by
  fun_induction writeDigits n with
  | case1 n h => simp only [readDigits, List.foldl_cons, List.foldl_nil]; omega
  | case2 n h ih =>
    rw [readDigits_concat, ih]
    exact Nat.div_add_mod n 10

/-- The low part of a number is written with zeros in front, behind the high part. -/
theorem writeDigits_mul_add {high low count : Nat} (hhigh : 0 < high) (hcount : 0 < count)
    (hlow : low < 10 ^ count) :
    writeDigits (high * 10 ^ count + low) = writeDigits high ++ pad count (writeDigits low) := by
  -- The last digit of the low part is that of the whole, so one digit is taken off both.
  induction count, hcount using Nat.le_induction generalizing low with
  | base =>
    have hlow' : low < 10 := by simpa using hlow
    have hdiv : (high * 10 + low) / 10 = high := by omega
    have hmod : (high * 10 + low) % 10 = low := by omega
    rw [pow_one, writeDigits_of_le (by omega), writeDigits_of_lt hlow', hdiv]
    simp only [hmod]
    rfl
  | succ count hcount ih =>
    have hpow : 10 ^ (count + 1) = 10 ^ count * 10 := pow_succ 10 count
    have hdiv : (high * 10 ^ (count + 1) + low) / 10 = high * 10 ^ count + low / 10 := by
      rw [hpow, ← mul_assoc]; omega
    have hmod : (high * 10 ^ (count + 1) + low) % 10 = low % 10 := by
      rw [hpow, ← mul_assoc]; omega
    have hbig : 10 ≤ high * 10 ^ (count + 1) + low := by
      have : 1 ≤ high * 10 ^ count := Nat.mul_pos hhigh (Nat.pow_pos (by decide))
      rw [hpow, ← mul_assoc]; omega
    rw [writeDigits_of_le hbig, hdiv, ih (by omega), List.append_assoc]
    congr 1
    simp only [hmod]
    rcases Nat.lt_or_ge low 10 with hlt | hge
    · -- A low part of one digit: its quotient is a zero of its own, which padding takes in.
      have hzero : low / 10 = 0 := by omega
      have hself : low % 10 = low := by omega
      rw [hzero, writeDigits_of_lt hlt, writeDigits_of_lt (by decide : 0 < 10)]
      have hzeros : List.replicate (count - 1) 0 ++ [(⟨0, by decide⟩ : Digit)]
          = List.replicate count 0 := by
        rw [← Nat.sub_add_cancel hcount, List.replicate_succ']
        rfl
      simp only [pad, List.length_singleton, hself, hzeros, Nat.add_sub_cancel]
    · rw [writeDigits_of_le hge]
      simp only [pad, List.length_append, List.length_singleton]
      rw [← List.append_assoc, Nat.add_sub_add_right]

/-- A small number is written in one step. -/
theorem writeWith_of_lt {n : Nat} (h : n < 10 ^ chunk) (leaf : Nat → Numeral) :
    writeWith leaf n = leaf n := by
  -- Rewriting with the definition would compute `10 ^ chunk`.
  unfold writeWith
  exact if_pos h

/-- A larger number is written in two parts. -/
theorem writeWith_of_le {n : Nat} (h : 10 ^ chunk ≤ n) (leaf : Nat → Numeral) :
    writeWith leaf n
      = writeWith leaf (n / 10 ^ half n) ++ pad (half n) (writeWith leaf (n % 10 ^ half n)) := by
  conv => lhs; unfold writeWith
  exact if_neg (Nat.not_lt_of_le h)

/-- **Writing by halves is writing.** -/
theorem writeWith_eq {leaf : Nat → Numeral} (hleaf : ∀ n < 10 ^ chunk, leaf n = writeDigits n)
    (n : Nat) : writeWith leaf n = writeDigits n := by
  fun_induction writeWith leaf n with
  | case1 n hlt => exact hleaf n hlt
  | case2 n hlt ihhigh ihlow =>
    have hle : 10 ^ chunk ≤ n := Nat.le_of_not_lt hlt
    have hlow : n % 10 ^ half n < 10 ^ half n := Nat.mod_lt n (Nat.pow_pos (by decide))
    rw [ihhigh, ihlow, ← writeDigits_mul_add (div_half_pos hle) (half_pos hle) hlow,
      Nat.div_add_mod']

/-- Writing by halves is writing from the right. -/
theorem write_eq (n : Nat) : write n = writeDigits n :=
  writeWith_eq (fun _ _ => rfl) n

/-- Every number has a digit, zero too. -/
theorem write_ne_nil (n : Nat) : write n ≠ [] := by
  rw [write_eq]
  exact writeDigits_ne_nil n

/-- What is written is read again. -/
theorem readDigits_write (n : Nat) : readDigits (write n) = n := by
  rw [write_eq, readDigits_writeDigits]

/-! ## Digits in a text -/

/-- Whether no digit stands here. -/
def NoDigit : List Char → Prop
  | [] => True
  | c :: _ => Digit.ofChar? c = none

/-- Written digits end where no digit follows. -/
theorem span_toChars_append (ds : Numeral) {rest : List Char} (h : NoDigit rest) :
    span (toChars ds ++ rest) = (ds, rest) := by
  induction ds with
  | nil =>
    cases rest with
    | nil => rfl
    | cons c cs =>
      have hc : Digit.ofChar? c = none := h
      simp only [toChars, List.map_nil, List.nil_append, span, hc]
  | cons d ds ih =>
    have ih' : span (List.map Digit.toChar ds ++ rest) = (ds, rest) := ih
    simp only [toChars, List.map_cons, List.cons_append, span, Digit.ofChar?_toChar, ih']

end Daybook.Numeral
