import Mathlib.Data.List.Basic
import Daybook.Text.Utf8

/-!
Bytes of ASCII and other bytes.

A character of ASCII is one byte, its own number, and all bytes of any other character are above ASCII
(`le_of_mem_utf8EncodeChar`). So a rule that asks for characters of ASCII only asks the same of bytes, and
it never begins or ends inside of a character.
-/

namespace Daybook.Text.Utf8

/-- A character of ASCII is encoded as its own number. -/
theorem utf8EncodeChar_of_ascii {c : Char} (h : c.toNat < 128) :
    String.utf8EncodeChar c = [UInt8.ofNat c.toNat] := by
  simp only [String.utf8EncodeChar, Char.toNat_val]
  rw [if_pos (by omega)]

theorem le_toNat_ofNat {n : Nat} (h : 128 ≤ n) (hlt : n < 256) : 128 ≤ (UInt8.ofNat n).toNat := by
  rw [UInt8.toNat_ofNat']
  omega

/-- No byte of a longer character is a character of ASCII. -/
theorem le_of_mem_utf8EncodeChar {c : Char} (h : 128 ≤ c.toNat) {b : UInt8}
    (hb : b ∈ String.utf8EncodeChar c) : 128 ≤ b.toNat := by
  simp only [String.utf8EncodeChar, Char.toNat_val] at hb
  rw [if_neg (by omega)] at hb
  -- Two, three or four bytes, each of them a part of the number on top of a mark.
  split at hb
  · simp only [List.mem_cons, List.not_mem_nil, or_false] at hb
    rcases hb with rfl | rfl
    · exact le_toNat_ofNat (by omega) (by omega)
    · exact le_toNat_ofNat (by omega) (by omega)
  split at hb
  · simp only [List.mem_cons, List.not_mem_nil, or_false] at hb
    rcases hb with rfl | rfl | rfl
    · exact le_toNat_ofNat (by omega) (by omega)
    · exact le_toNat_ofNat (by omega) (by omega)
    · exact le_toNat_ofNat (by omega) (by omega)
  · simp only [List.mem_cons, List.not_mem_nil, or_false] at hb
    rcases hb with rfl | rfl | rfl | rfl
    · exact le_toNat_ofNat (by omega) (by omega)
    · exact le_toNat_ofNat (by omega) (by omega)
    · exact le_toNat_ofNat (by omega) (by omega)
    · exact le_toNat_ofNat (by omega) (by omega)

/-- A byte of ASCII in a text is a character of the text. -/
theorem mem_of_mem_encode {text : List Char} {b : UInt8} (h : b ∈ encode text)
    (hb : b.toNat < 128) : Char.ofNat b.toNat ∈ text := by
  obtain ⟨c, hc, hmem⟩ := List.mem_flatMap.1 h
  by_cases hascii : c.toNat < 128
  · rw [utf8EncodeChar_of_ascii hascii, List.mem_singleton] at hmem
    have hnat : b.toNat = c.toNat := by
      rw [hmem, UInt8.toNat_ofNat']
      omega
    rwa [hnat, Char.ofNat_toNat]
  · have := le_of_mem_utf8EncodeChar (by omega) hmem
    omega

/-! ## The number of characters -/

/-- Bytes are shown as no more characters than they are. -/
theorem length_decode_le (bytes : List UInt8) : (decode bytes).length ≤ bytes.length := by
  fun_induction decode bytes with
  | case1 => exact Nat.le_refl 0
  | case2 byte rest c _ ih =>
    rw [List.length_drop] at ih
    simp only [List.length_cons]
    omega
  | case3 byte rest _ ih =>
    rw [List.length_drop] at ih
    simp only [List.length_cons]
    omega

/-! ## Cutting bytes between characters -/

/-- What is encoded is decoded again. -/
theorem decode_encode (text : List Char) : decode (encode text) = text := by
  have h := decode_encode_append text []
  rw [List.append_nil, decode, List.append_nil] at h
  exact h

/-- A text that is not empty takes bytes. -/
theorem width_pos {text : List Char} (h : text ≠ []) : 0 < width text := by
  obtain ⟨c, text, rfl⟩ := List.exists_cons_of_ne_nil h
  have := Char.utf8Size_pos c
  rw [width_cons]
  omega

/-- The bytes of a text between two others. -/
theorem take_drop_encode (before text after : List Char) :
    ((encode (before ++ text ++ after)).drop (width before)).take (width text) = encode text := by
  rw [List.append_assoc, encode_append, encode_append, ← length_encode before,
    ← length_encode text, List.drop_left, List.take_left]

end Daybook.Text.Utf8
