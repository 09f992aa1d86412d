import Daybook.Proofs.Text.Utf8
import Daybook.Source.Span

/-!
Spans of whole characters.

A span may cut characters, and then its slice has replacement characters in it. Where a source is put
together from three texts, the span of the one in the middle has just the bytes of that text
(`bytes_of_append`), so its slice is that text and nothing is replaced.
-/

namespace Daybook

open Text.Utf8

/-- Whether the offset is between two characters of the text, or at one of its ends. -/
def IsBoundary (text : List Char) (offset : Nat) : Prop :=
  ∃ before after, text = before ++ after ∧ offset = width before

/-- Places between characters lie within the text. -/
theorem IsBoundary.le_width {text : List Char} {offset : Nat} (h : IsBoundary text offset) :
    offset ≤ width text := by
  obtain ⟨before, after, rfl, rfl⟩ := h
  rw [width_append]
  exact Nat.le_add_right _ _

namespace Span

/-- The bytes of the source in the span. -/
def bytes (s : Span) (source : String) : List UInt8 :=
  ((encode source.toList).drop s.start).take s.length

theorem slice_eq_decode_bytes (s : Span) (source : String) :
    s.slice source = String.ofList (decode (s.bytes source)) := rfl

section Middle

variable {source : String} {before text after : List Char} {s : Span}

/-- The span of a text between two others has the bytes of the text. -/
theorem bytes_of_append (hsource : source.toList = before ++ text ++ after)
    (hstart : s.start = width before) (hstop : s.stop = width before + width text) :
    s.bytes source = encode text := by
  have hlength : s.length = width text := by
    rw [length, hstart, hstop, Nat.add_sub_cancel_left]
  rw [bytes, hsource, hstart, hlength]
  exact take_drop_encode before text after

/-- A slice from the end of one part to the end of the next is the part between them. -/
theorem slice_of_append (hsource : source.toList = before ++ text ++ after)
    (hstart : s.start = width before) (hstop : s.stop = width before + width text) :
    s.slice source = String.ofList text := by
  rw [slice_eq_decode_bytes, bytes_of_append hsource hstart hstop, decode_encode]

/-- The ends of a part lie between characters. -/
theorem isBoundary_of_append (hsource : source.toList = before ++ text ++ after)
    (hstart : s.start = width before) (hstop : s.stop = width before + width text) :
    IsBoundary source.toList s.start ∧ IsBoundary source.toList s.stop := by
  refine ⟨⟨before, text ++ after, ?_, hstart⟩, ⟨before ++ text, after, hsource, ?_⟩⟩
  · rw [hsource, List.append_assoc]
  · rw [hstop, width_append]

end Middle

end Span

end Daybook
