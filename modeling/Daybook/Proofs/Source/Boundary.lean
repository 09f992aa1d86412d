import Mathlib.Order.MinMax
import Daybook.Proofs.Source.Relocation
import Daybook.Proofs.Source.Slice

/-!
Rounding to whole characters.

Moving both ends of a span down to the next place between two characters is a map of spans that preserves
unions (`Span.preservesUnion_round`), and the spans that it leaves alone are those that cut no character
(`Span.isWhole_iff`). So what is put together from spans of whole characters by unions alone has such a
span as well.
-/

namespace Daybook

open Text.Utf8

/-- The last place between two characters that is not behind the offset. -/
def lastBoundary : List Char → Nat → Nat
  | [], _ => 0
  | c :: text, offset =>
    if c.utf8Size ≤ offset then c.utf8Size + lastBoundary text (offset - c.utf8Size) else 0

theorem isBoundary_zero (text : List Char) : IsBoundary text 0 := ⟨[], text, rfl, rfl⟩

/-- Rounding down gives a place between characters. -/
theorem isBoundary_lastBoundary (text : List Char) (offset : Nat) :
    IsBoundary text (lastBoundary text offset) := by
  induction text generalizing offset with
  | nil => exact isBoundary_zero []
  | cons c text ih =>
    unfold lastBoundary
    by_cases hle : c.utf8Size ≤ offset
    · obtain ⟨before, after, htext, hwidth⟩ := ih (offset - c.utf8Size)
      rw [if_pos hle, hwidth]
      exact ⟨c :: before, after, by rw [htext, List.cons_append], by rw [width_cons]⟩
    · rw [if_neg hle]
      exact isBoundary_zero _

/-- A place between two characters stays where it is. -/
theorem lastBoundary_of_isBoundary {text : List Char} {offset : Nat} (h : IsBoundary text offset) :
    lastBoundary text offset = offset := by
  obtain ⟨before, after, rfl, rfl⟩ := h
  induction before with
  | nil =>
    rw [List.nil_append, width_nil]
    cases after with
    | nil => rfl
    | cons c after =>
      have hpos := Char.utf8Size_pos c
      exact if_neg (by omega)
  | cons c before ih =>
    rw [width_cons, List.cons_append, lastBoundary, if_pos (Nat.le_add_right _ _),
      Nat.add_sub_cancel_left, ih]

/-- Rounding down keeps the order of places. -/
theorem lastBoundary_mono (text : List Char) {m n : Nat} (h : m ≤ n) :
    lastBoundary text m ≤ lastBoundary text n := by
  induction text generalizing m n with
  | nil => exact Nat.le_refl 0
  | cons c text ih =>
    unfold lastBoundary
    by_cases hle : c.utf8Size ≤ m
    · have hrest := @ih (m - c.utf8Size) (n - c.utf8Size) (by omega)
      rw [if_pos hle, if_pos (Nat.le_trans hle h)]
      omega
    · rw [if_neg hle]
      exact Nat.zero_le _

namespace Span

variable {text : List Char}

/-- Whether the span lies inside of the text and cuts none of its characters. -/
structure IsWhole (text : List Char) (s : Span) : Prop where
  start : IsBoundary text s.start
  stop : IsBoundary text s.stop
  inside : s.stop ≤ width text

/-- The span with both ends moved down between two characters. -/
def round (text : List Char) (s : Span) : Span :=
  ⟨lastBoundary text s.start, lastBoundary text s.stop, lastBoundary_mono text s.start_le_stop⟩

/-- Rounding preserves unions of spans. -/
theorem preservesUnion_round (text : List Char) : PreservesUnion (round text) := by
  intro a b
  have hmono : Monotone (lastBoundary text) := fun _ _ h => lastBoundary_mono text h
  exact eq_of_bounds hmono.map_min hmono.map_max

/-- The spans that rounding leaves alone are those that cut nothing. -/
theorem isWhole_iff {s : Span} : s.IsWhole text ↔ round text s = s := by
  constructor
  · intro h
    exact eq_of_bounds (lastBoundary_of_isBoundary h.start) (lastBoundary_of_isBoundary h.stop)
  · intro h
    have hstart := isBoundary_lastBoundary text s.start
    have hstop := isBoundary_lastBoundary text s.stop
    have hround : lastBoundary text s.start = s.start ∧ lastBoundary text s.stop = s.stop :=
      ⟨congrArg Span.start h, congrArg Span.stop h⟩
    rw [hround.1] at hstart
    rw [hround.2] at hstop
    exact ⟨hstart, hstop, hstop.le_width⟩

theorem isWhole_point_iff {offset : Nat} : (point offset).IsWhole text ↔ IsBoundary text offset :=
  ⟨fun h => h.start, fun h => ⟨h, h, h.le_width⟩⟩

end Span

end Daybook
