import Daybook.Proofs.Source.Extent

/-!
Moving spans.

A map of spans that preserves unions (`PreservesUnion`) moves the extent of values along with the values
(`covering_map`). Shifting all of them by the same number of bytes is such a map.
-/

namespace Daybook

namespace Span

/-- The span so many bytes further on. -/
def shift (n : Nat) (s : Span) : Span :=
  ⟨s.start + n, s.stop + n, Nat.add_le_add_right s.start_le_stop n⟩

/-- Whether the union of two spans is moved to the union of what they are moved to. -/
def PreservesUnion (f : Span → Span) : Prop :=
  ∀ a b, f (a.union b) = (f a).union (f b)

/-- Shifting spans preserves their unions. -/
theorem preservesUnion_shift (n : Nat) : PreservesUnion (shift n) := by
  intro a b
  refine eq_of_bounds ?_ ?_
  · simp only [shift, union]; omega
  · simp only [shift, union]; omega

/-- A map that preserves unions also preserves what covers many spans. -/
theorem covering_map {f : Span → Span} (hf : PreservesUnion f) (a : Span) (bs : List Span) :
    covering (f a) (bs.map f) = f (covering a bs) := by
  induction bs generalizing a with
  | nil => rfl
  | cons b bs ih =>
    calc covering ((f a).union (f b)) (bs.map f)
        = covering (f (a.union b)) (bs.map f) := by rw [hf]
      _ = f (covering (a.union b) bs) := ih _

end Span

namespace Spanned

variable {α : Type}

/-- The value with its span moved. -/
def relocate (f : Span → Span) (t : Spanned α) : Spanned α :=
  ⟨t.value, f t.span⟩

section

variable (f : Span → Span)

@[simp] theorem value_relocate (t : Spanned α) : (t.relocate f).value = t.value := rfl

@[simp] theorem span_relocate (t : Spanned α) : (t.relocate f).span = f t.span := rfl

@[simp] theorem map_value_relocate (ts : List (Spanned α)) :
    (ts.map (relocate f)).map (·.value) = ts.map (·.value) := by
  simp only [List.map_map, Function.comp_def, value_relocate]

@[simp] theorem map_span_relocate (ts : List (Spanned α)) :
    (ts.map (relocate f)).map (·.span) = (ts.map (·.span)).map f := by
  simp only [List.map_map, Function.comp_def, span_relocate]

end

end Spanned

end Daybook
