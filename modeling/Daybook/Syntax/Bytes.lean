import Daybook.Syntax.Lexer

/-!
Reading the bytes of a source.

A source is read byte by byte: each rule is tried at every byte, an unreadable run goes on from one byte
to the next, and what a rule takes is decoded afterwards. The rules are about ASCII, so a byte can be seen
as the character with its number; the pieces of these characters, decoded, are the pieces of the bytes,
and a byte counts as one.
-/

namespace Daybook

namespace Text.Utf8

/-- The character with the number of a byte. -/
def byteChar (byte : UInt8) : Char :=
  Char.ofNat byte.toNat

/-- The text of bytes that are given as characters. -/
def decodeChars (bytes : List Char) : List Char :=
  decode (bytes.map fun c => UInt8.ofNat c.toNat)

/-- The text of bytes that are given as characters, as strings. -/
def decodeString (bytes : String) : String :=
  String.ofList (decodeChars bytes.toList)

end Text.Utf8

open Text.Utf8

/-- The token of bytes that are given as characters. The digits of a number need no decoding. -/
def Token.decoded : Token → Token
  | .identifier name => .identifier (decodeString name)
  | .number literal => .number literal
  | .currency code => .currency (decodeString code)
  | .movement symbol => .movement (decodeString symbol)
  | .separator symbol => .separator (decodeString symbol)
  | .string content => .string (decodeString content)
  | .comment content => .comment (decodeString content)

/-- The piece of bytes that are given as characters. -/
def Piece.decoded : Piece → Piece
  | .blank text => .blank (decodeChars text)
  | .token t => .token t.decoded
  | .unreadable text => .unreadable (decodeChars text)

namespace Lexed

/-- The pieces of bytes with the span of each, where the first one starts at the given offset. -/
def placeBytes (offset : Nat) : List Piece → List (Spanned Piece)
  | [] => []
  | piece :: pieces =>
    let stop := offset + piece.chars.length
    ⟨piece.decoded, ⟨offset, stop, Nat.le_add_right _ _⟩⟩ :: placeBytes stop pieces

/-- The tokens and errors of the bytes of a source. -/
def ofBytes (bytes : List UInt8) : Lexed :=
  let pieces := placeBytes 0 (Piece.split (bytes.map byteChar))
  { tokens := pieces.filterMap token?, errors := pieces.filterMap error? }

end Lexed

end Daybook
