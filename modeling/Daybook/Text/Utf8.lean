/-!
The bytes of a text.

Positions in a ledger source are byte offsets of its UTF-8 encoding, so a range may be cut anywhere,
also inside a character. `encode` writes a text as bytes. `decode` reads any bytes whatever: where
they are well formed it undoes `encode`, and where they are not it puts the replacement character
for each longest piece that begins a character without completing it.

Main statement: `decode_encode_append`, which says that whole characters are read back however the
bytes go on.
-/

namespace Daybook.Text.Utf8

-- The sum of no numbers is the literal zero, whatever else is in scope.
attribute [local instance (high)] Zero.ofOfNat0

/-- The UTF-8 bytes of a text. -/
def encode (text : List Char) : List UInt8 :=
  text.flatMap String.utf8EncodeChar

/-- The number of bytes in the encoding of a text. -/
def width (text : List Char) : Nat :=
  (text.map Char.utf8Size).sum

@[simp] theorem encode_nil : encode [] = [] := rfl

@[simp] theorem encode_cons (c : Char) (text : List Char) :
    encode (c :: text) = String.utf8EncodeChar c ++ encode text := rfl

@[simp] theorem encode_append (s t : List Char) : encode (s ++ t) = encode s ++ encode t := by
  simp [encode]

@[simp] theorem width_nil : width [] = 0 := rfl

@[simp] theorem width_cons (c : Char) (text : List Char) :
    width (c :: text) = c.utf8Size + width text := rfl

@[simp] theorem width_append (s t : List Char) : width (s ++ t) = width s + width t := by
  simp [width]

/-- The width of a text is the number of its bytes. -/
theorem length_encode (text : List Char) : (encode text).length = width text := by
  induction text with
  | nil => rfl
  | cons c text ih => simp [ih]

/-! ## Reading bytes -/

/-- The character that the bytes begin with, if they begin with a complete one. -/
def firstChar? (bytes : List UInt8) : Option Char :=
  bytes.toByteArray.utf8DecodeChar? 0

/-- What may follow a lead byte: how many bytes, and the least and the greatest value of the first of
them. Overlong forms, surrogates and code points past the last one are excluded by these bounds. -/
def followers (lead : UInt8) : Nat × UInt8 × UInt8 :=
  if 0xC2 ≤ lead ∧ lead ≤ 0xDF then (1, 0x80, 0xBF)
  else if lead = 0xE0 then (2, 0xA0, 0xBF)
  else if lead = 0xED then (2, 0x80, 0x9F)
  else if 0xE1 ≤ lead ∧ lead ≤ 0xEF then (2, 0x80, 0xBF)
  else if lead = 0xF0 then (3, 0x90, 0xBF)
  else if 0xF1 ≤ lead ∧ lead ≤ 0xF3 then (3, 0x80, 0xBF)
  else if lead = 0xF4 then (3, 0x80, 0x8F)
  else (0, 0, 0)

/-- Bytes after the second one of a sequence. -/
def isContinuation (byte : UInt8) : Bool :=
  0x80 ≤ byte && byte ≤ 0xBF

/-- The length of the piece at the front that begins a character and breaks off; a byte that begins
no character is a piece of its own. -/
def brokenLength : List UInt8 → Nat
  | [] => 0
  | [_] => 1
  | lead :: second :: rest =>
    let (count, low, high) := followers lead
    if 0 < count ∧ low ≤ second ∧ second ≤ high then
      2 + ((rest.take (count - 1)).takeWhile isContinuation).length
    else 1

/-- The text of any bytes: complete characters as they are, and one replacement character for each
piece that breaks off. -/
def decode : List UInt8 → List Char
  | [] => []
  | byte :: rest =>
    match firstChar? ((byte :: rest).take 4) with
    | some c => c :: decode (rest.drop (c.utf8Size - 1))
    | none => '\uFFFD' :: decode (rest.drop (brokenLength (byte :: rest) - 1))
termination_by bytes => bytes.length

/-- A character is found again in front of any bytes. -/
theorem firstChar?_utf8EncodeChar_append (c : Char) (bytes : List UInt8) :
    firstChar? (String.utf8EncodeChar c ++ bytes) = some c := by
  simp [firstChar?, List.toByteArray_append, ByteArray.utf8DecodeChar?_utf8EncodeChar_append]

/-- So it is decoded first, and the bytes behind it on their own. -/
theorem decode_utf8EncodeChar_append (c : Char) (bytes : List UInt8) :
    decode (String.utf8EncodeChar c ++ bytes) = c :: decode bytes := by
  have hlen : (String.utf8EncodeChar c).length = c.utf8Size := by simp
  have hfirst : firstChar? ((String.utf8EncodeChar c ++ bytes).take 4) = some c := by
    have hle : (String.utf8EncodeChar c).length ≤ 4 := by rw [hlen]; exact Char.utf8Size_le_four c
    rw [List.take_append, List.take_of_length_le hle]
    exact firstChar?_utf8EncodeChar_append c _
  have hdrop : (String.utf8EncodeChar c ++ bytes).drop c.utf8Size = bytes := by
    rw [← hlen]; simp
  have hpos := Char.utf8Size_pos c
  match hbytes : String.utf8EncodeChar c ++ bytes with
  | [] => simp_all
  | byte :: rest =>
    rw [hbytes] at hfirst hdrop
    rw [decode, hfirst]
    have hrest : rest.drop (c.utf8Size - 1) = bytes := by
      obtain ⟨n, hn⟩ : ∃ n, c.utf8Size = n + 1 := ⟨c.utf8Size - 1, by omega⟩
      simpa [hn] using hdrop
    simp [hrest]

/-- **Whole characters are read back**, whatever bytes follow them. -/
theorem decode_encode_append (text : List Char) (bytes : List UInt8) :
    decode (encode text ++ bytes) = text ++ decode bytes := by
  induction text with
  | nil => rfl
  | cons c text ih => simp [decode_utf8EncodeChar_append, ih]

end Daybook.Text.Utf8
