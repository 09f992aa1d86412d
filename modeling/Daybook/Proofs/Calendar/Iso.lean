import Daybook.Calendar.Iso
import Daybook.Proofs.Numeric.Numeral
import Daybook.Proofs.Text.Words

/-!
Dates in ISO notation are read back.

The year of a date has four digits and its month and day have two, with zeros in front (`length_pad_write`).
So the digits of each are where they are looked for (`takeDigits?_toChars`), and a date can be read back from
its text (`ofIso?_iso`).
-/

namespace Daybook

open Text

/-! ## Digits -/

namespace Numeral

/-- A number has no more digits than the powers of ten that it reaches. -/
theorem length_writeDigits_le {n count : Nat} (hcount : 0 < count) (h : n < 10 ^ count) :
    (writeDigits n).length ≤ count := by
  induction count, hcount using Nat.le_induction generalizing n with
  | base =>
    rw [writeDigits_of_lt (by simpa using h), List.length_singleton]
  | succ count hcount ih =>
    rcases Nat.lt_or_ge n 10 with hlt | hge
    · rw [writeDigits_of_lt hlt, List.length_singleton]
      omega
    · -- Without its last digit the number stays below the power of ten before.
      have hdiv : n / 10 < 10 ^ count := by
        rw [pow_succ] at h
        exact Nat.div_lt_of_lt_mul (by omega)
      rw [writeDigits_of_le hge, List.length_append, List.length_singleton]
      exact Nat.succ_le_succ (ih hdiv)

/-- **Numbers are filled up with zeros.** -/
theorem length_pad_write {n count : Nat} (hcount : 0 < count) (h : n < 10 ^ count) :
    (pad count (write n)).length = count := by
  rw [length_pad, write_eq, Nat.max_eq_left (length_writeDigits_le hcount h)]

/-- Zeros in front do not change what is read. -/
theorem read_pad_write (count n : Nat) : read (pad count (write n)) = n := by
  rw [read_eq, readDigits_pad, readDigits_write]

/-- Digits are visible characters. -/
theorem isVisible_of_mem_toChars {ds : Numeral} {c : Char} (h : c ∈ ds.toChars) :
    isVisible c = true := by
  have hdigit : ∀ d : Digit, isVisible d.toChar = true := by decide
  obtain ⟨d, -, rfl⟩ := List.mem_map.1 h
  exact hdigit d

end Numeral

namespace Date

/-- **A run of digits is read as its number**, if it is as long as is asked for. -/
theorem takeDigits?_toChars (ds : Numeral) (rest : List Char) :
    takeDigits? ds.length (ds.toChars ++ rest) = some (Numeral.read ds, rest) := by
  have hlength : ds.toChars.length = ds.length := List.length_map _
  have hspan : Numeral.span ds.toChars = (ds, []) := by
    have hnone : Numeral.NoDigit [] := trivial
    have happend := Numeral.span_toChars_append ds hnone
    rwa [List.append_nil] at happend
  simp only [takeDigits?]
  rw [← hlength, List.take_left, List.drop_left, hspan]
  simp only [hlength, List.isEmpty_nil, and_self, if_true]

/-- The digits of a part of a date. -/
theorem takeDigits?_pad {n count : Nat} (hcount : 0 < count) (h : n < 10 ^ count) (rest : List Char) :
    takeDigits? count ((Numeral.pad count (Numeral.write n)).toChars ++ rest) = some (n, rest) := by
  have htake := takeDigits?_toChars (Numeral.pad count (Numeral.write n)) rest
  rwa [Numeral.length_pad_write hcount h, Numeral.read_pad_write] at htake

variable (d : Date)

/-- A date is made from its own parts. -/
theorem of?_parts : of? d.year d.month d.day = some d :=
  dif_pos ⟨d.year_bounds, d.month_bounds, d.day_bounds⟩

theorem isVisible_of_mem_isoChars {c : Char} (h : c ∈ d.isoChars) : isVisible c = true := by
  have hhyphen : isVisible '-' = true := by decide
  simp only [isoChars, List.mem_append, List.mem_cons] at h
  rcases h with (h | rfl | h) | rfl | h
  · exact Numeral.isVisible_of_mem_toChars h
  · exact hhyphen
  · exact Numeral.isVisible_of_mem_toChars h
  · exact hhyphen
  · exact Numeral.isVisible_of_mem_toChars h

/-- The year of a date has four digits, and its month and day have two. -/
theorem parts_lt : d.year < 10 ^ 4 ∧ d.month < 10 ^ 2 ∧ d.day < 10 ^ 2 := by
  have hyear := d.year_bounds
  have hmonth := d.month_bounds
  have hday := d.day_bounds.2.trans (daysInMonth_le d.year d.month)
  omega

/-- A date in ISO notation has ten characters, since no year has more than four digits. -/
theorem length_isoChars : d.isoChars.length = 10 := by
  obtain ⟨hyear, hmonth, hday⟩ := d.parts_lt
  simp only [isoChars, List.length_append, List.length_cons, Numeral.toChars, List.length_map,
    Numeral.length_pad_write (by decide) hyear, Numeral.length_pad_write (by decide) hmonth,
    Numeral.length_pad_write (by decide) hday]

/-- A date in ISO notation is one word. -/
theorem isWord_iso : IsWord d.iso where
  ne_empty := by
    intro hempty
    have hlength := d.length_isoChars
    rw [iso, String.ofList_eq_empty_iff] at hempty
    rw [hempty] at hlength
    cases hlength
  visible := by
    rw [iso, String.toList_ofList]
    exact fun c => d.isVisible_of_mem_isoChars

/-- The text of a date has ten bytes. -/
theorem utf8ByteSize_iso : d.iso.utf8ByteSize = 10 := by
  rw [iso, utf8ByteSize_ofList fun c => d.isVisible_of_mem_isoChars, length_isoChars]

/-- A month and a day with a hyphen between them are read as they are. -/
theorem takeDay?_parts : takeDay? d.year true
    ((Numeral.pad 2 (Numeral.write d.month)).toChars
      ++ '-' :: ((Numeral.pad 2 (Numeral.write d.day)).toChars ++ [])) = some d := by
  obtain ⟨-, hmonth, hday⟩ := d.parts_lt
  have htake := takeDigits?_pad (by decide) hmonth
    ('-' :: ((Numeral.pad 2 (Numeral.write d.day)).toChars ++ []))
  unfold takeDay?
  split
  · -- A week would begin with a letter, where the month has a digit.
    next week hweek =>
    rw [hweek] at htake
    cases htake
  · rw [htake]
    show takeDigits? 2 _ >>= _ = _
    rw [takeDigits?_pad (by decide) hday]
    exact d.of?_parts

/-- **A date can be read back from its text.** -/
theorem ofIso?_iso : ofIso? d.iso = some d := by
  obtain ⟨hyear, -, -⟩ := d.parts_lt
  have hchars : d.iso.toList = (Numeral.pad 4 (Numeral.write d.year)).toChars
      ++ '-' :: ((Numeral.pad 2 (Numeral.write d.month)).toChars
        ++ '-' :: ((Numeral.pad 2 (Numeral.write d.day)).toChars ++ [])) := by
    rw [iso, String.toList_ofList, isoChars, List.append_nil, List.append_assoc]
    rfl
  have hsize : ¬¬[7, 8, 10].contains d.iso.utf8ByteSize = true := by
    rw [utf8ByteSize_iso]
    decide
  rw [ofIso?, if_neg hsize, hchars, takeDigits?_pad (by decide) hyear]
  exact d.takeDay?_parts

end Date

end Daybook
