import Daybook.Compilation
import Daybook.Proofs.Guarded.Numeric
import Daybook.Proofs.Syntax.Bytes

/-!
Cutting a source into tokens.

Two things are asked of what a rule takes: that it has a span, and that it has a value if it is a number.
A piece begins where the one before it ends, and the text of a number is a literal, so neither is refused
(`lexed_eq`).
-/

namespace Daybook.Guarded

open Text.Utf8

/-- A piece of bytes as text; a number is converted at once. -/
def piece (p : Piece) : Guarded Piece :=
  match p with
  | .token (.number literal) => do
    let _ ← decimal (decodeChars literal.toChars)
    return p.decoded
  | _ => .ok p.decoded

/-- The pieces of bytes with the span of each, where the first one starts at the given offset. -/
def place (offset : Nat) : List Piece → Guarded (List (Spanned Piece))
  | [] => .ok []
  | p :: pieces => do
    let stop := offset + p.chars.length
    let value ← piece p
    let range ← span offset stop
    let rest ← place stop pieces
    return ⟨value, range⟩ :: rest

/-- The tokens and errors of a source. -/
def lexed (source : String) : Guarded Lexed := do
  let pieces ← place 0 (Piece.split ((encode source.toList).map byteChar))
  return { tokens := pieces.filterMap Lexed.token?, errors := pieces.filterMap Lexed.error? }

/-- The bytes of a literal are its characters. -/
theorem decodeChars_decimal (d : Decimal) : decodeChars d.toChars = d.toChars := by
  have hascii : byteChars d.toChars = d.toChars :=
    byteChars_of_ascii fun _ h => Token.lt_of_mem_decimal h
  conv => lhs; rw [← hascii]
  exact decodeChars_byteChars d.toChars

/-- The bytes of a piece are decoded, and no construction of a token refuses them. -/
theorem piece_eq (p : Piece) : piece p = .ok p.decoded := by
  unfold piece
  split
  · next literal =>
    rw [decodeChars_decimal, bind_of_eq (decimal_toChars literal)]
    rfl
  · rfl

/-- Placing pieces makes no span that ends before it begins. -/
theorem place_eq (offset : Nat) (pieces : List Piece) :
    place offset pieces = .ok (Lexed.placeBytes offset pieces) := by
  induction pieces generalizing offset with
  | nil => rfl
  | cons p pieces ih =>
    have hspan := span_eq ⟨offset, offset + p.chars.length, Nat.le_add_right _ _⟩
    unfold place
    rw [bind_of_eq (piece_eq p), bind_of_eq hspan, bind_of_eq (ih _)]
    rfl

/-- **Every source is cut into tokens.** -/
theorem lexed_eq (source : String) : lexed source = .ok (Compilation.of source).lexed := by
  unfold lexed
  rw [bind_of_eq (place_eq _ _)]
  rfl

end Daybook.Guarded
