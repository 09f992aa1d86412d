import Daybook.Text.Utf8

/-!
Ranges of a source text.

A span is a half-open range of byte offsets. Every token, statement, entry and diagnostic carries the
span it was read from.
-/

namespace Daybook

/-- The bytes from `start` up to, but not including, `stop`. -/
structure Span where
  start : Nat
  stop : Nat
  start_le_stop : start ≤ stop := by omega
  deriving DecidableEq

/-- Why there is no such span. -/
inductive SpanError where
  /-- The lower bound is negative, or it is above the upper one. -/
  | invalid (start stop : Int)
  /-- No span covers nothing. -/
  | nothingToCover
  deriving DecidableEq

namespace SpanError

/-- The text of the message. -/
def message : SpanError → String
  | .invalid start stop => s!"Invalid span: {start}..{stop}"
  | .nothingToCover => "covering() requires at least one span"

end SpanError

namespace Span

/-- The span with the given bounds. -/
def of? (start stop : Int) : Except SpanError Span :=
  if h : 0 ≤ start ∧ start ≤ stop then .ok ⟨start.toNat, stop.toNat, by omega⟩
  else .error (.invalid start stop)

/-- The empty span at an offset. -/
def point (offset : Nat) : Span := ⟨offset, offset, Nat.le_refl offset⟩

/-- The number of bytes. -/
def length (s : Span) : Nat := s.stop - s.start

/-- The smallest span that covers both. -/
def union (a b : Span) : Span :=
  ⟨min a.start b.start, max a.stop b.stop, by have := a.start_le_stop; omega⟩

/-- The smallest span that covers a span and all of a list. -/
def covering (first : Span) (others : List Span) : Span :=
  others.foldl union first

/-- The smallest span that covers all of a list, which must not be empty. -/
def covering? : List Span → Except SpanError Span
  | [] => .error .nothingToCover
  | first :: others => .ok (covering first others)

/-- Spans are sorted by their start, and by their end where they start together. -/
def precedes (a b : Span) : Bool :=
  a.start < b.start || (a.start = b.start && a.stop ≤ b.stop)

/-- The text covered by a span. Characters that the span cuts are replaced. -/
def slice (s : Span) (source : String) : String :=
  let bytes := Text.Utf8.encode source.toList
  String.ofList (Text.Utf8.decode ((bytes.drop s.start).take s.length))

/-- The two offsets with two dots between them. -/
def text (s : Span) : String :=
  s!"{s.start}..{s.stop}"

end Span

/-- A value together with the span it was read from. -/
structure Spanned (α : Type) where
  value : α
  span : Span
  deriving DecidableEq

end Daybook
