import Daybook.Syntax.Bytes
import Daybook.Proofs.Syntax.Seam
import Daybook.Proofs.Text.Utf8

/-!
Reading bytes is reading characters.

The rules are about ASCII, and no byte of a longer character is ASCII. So the pieces of the bytes of a text
are the pieces of the text, each of them as bytes (`Cut.encoded`): no character is cut, and decoding a
piece gives its text back. Main statement: `ofBytes_encode`.
-/

namespace Daybook.Text.Utf8

/-! ## Bytes as characters -/

/-- The bytes of a text, as the characters with their numbers. -/
def byteChars (text : List Char) : List Char :=
  (encode text).map byteChar

theorem toNat_byteChar (b : UInt8) : (byteChar b).toNat = b.toNat := by
  have hlt := b.toNat_lt
  have hvalid : b.toNat.isValidChar := .inl (by omega)
  rw [byteChar, Char.ofNat, dif_pos hvalid]
  rfl

/-- Bytes of texts one behind the other are one behind the other. -/
theorem byteChars_append (s t : List Char) : byteChars (s ++ t) = byteChars s ++ byteChars t := by
  rw [byteChars, encode_append, List.map_append]
  rfl

/-- A character of ASCII stays what it is, and any other becomes characters that are not ASCII. -/
theorem byteChars_cons (c : Char) (text : List Char) :
    (c.toNat < 128 ∧ byteChars (c :: text) = c :: byteChars text)
      ∨ (128 ≤ c.toNat ∧ ∃ d ds, byteChars (c :: text) = d :: ds ++ byteChars text
        ∧ ∀ e ∈ d :: ds, 128 ≤ e.toNat) := by
  rcases Nat.lt_or_ge c.toNat 128 with hascii | hwide
  · refine .inl ⟨hascii, ?_⟩
    have hbyte : byteChar (UInt8.ofNat c.toNat) = c := by
      rw [byteChar, UInt8.toNat_ofNat', Nat.mod_eq_of_lt (by omega), Char.ofNat_toNat]
    rw [byteChars, encode_cons, utf8EncodeChar_of_ascii hascii, List.singleton_append,
      List.map_cons, hbyte]
    rfl
  · refine .inr ⟨hwide, ?_⟩
    obtain ⟨b, bs, hbytes⟩ : ∃ b bs, String.utf8EncodeChar c = b :: bs := by
      refine List.exists_cons_of_ne_nil (List.ne_nil_of_length_pos ?_)
      rw [String.length_utf8EncodeChar]
      exact Char.utf8Size_pos c
    refine ⟨byteChar b, bs.map byteChar, ?_, ?_⟩
    · rw [byteChars, encode_cons, hbytes, List.map_append]
      rfl
    · intro e he
      rw [← List.map_cons, ← hbytes] at he
      obtain ⟨byte, hbyte, rfl⟩ := List.mem_map.1 he
      rw [toNat_byteChar]
      exact le_of_mem_utf8EncodeChar hwide hbyte

/-- A text of ASCII has its own characters as bytes. -/
theorem byteChars_of_ascii {text : List Char} (h : ∀ c ∈ text, c.toNat < 128) :
    byteChars text = text := by
  induction text with
  | nil => rfl
  | cons c text ih =>
    obtain ⟨hc, htext⟩ := List.forall_mem_cons.1 h
    rcases byteChars_cons c text with ⟨-, hcons⟩ | ⟨hwide, -⟩
    · rw [hcons, ih htext]
    · omega

/-- A text is decoded from its bytes. -/
theorem decodeChars_byteChars (text : List Char) : decodeChars (byteChars text) = text := by
  have hbytes : (byteChars text).map (fun c => UInt8.ofNat c.toNat) = encode text := by
    rw [byteChars, List.map_map]
    refine (List.map_congr_left ?_).trans (List.map_id _)
    intro b _
    rw [Function.comp_apply, toNat_byteChar, UInt8.ofNat_toNat]
    rfl
  rw [decodeChars, hbytes, decode_encode]

theorem length_byteChars (text : List Char) : (byteChars text).length = width text := by
  rw [byteChars, List.length_map, length_encode]

/-- A byte of ASCII stands for its own character only, since no other character has such bytes. -/
theorem mem_of_mem_byteChars {text : List Char} {c : Char} (h : c ∈ byteChars text)
    (hascii : c.toNat < 128) : c ∈ text := by
  obtain ⟨b, hb, rfl⟩ := List.mem_map.1 h
  rw [toNat_byteChar] at hascii
  exact mem_of_mem_encode hb hascii

end Daybook.Text.Utf8

namespace Daybook.Text

open Utf8

/-! ## Classes of characters -/

/-- Outside of ASCII no byte is a blank. -/
theorem isBlank_of_wide {c : Char} (h : 128 ≤ c.toNat) : isBlank c = false := by
  rw [Bool.eq_false_iff]
  intro hblank
  have := toNat_of_isBlank hblank
  omega

/-- A run that halts before a text halts before its bytes, if bytes outside of ASCII are all alike to it. -/
theorem Halts.byteChars {p : Char → Bool} {rest : List Char} (h : Halts p rest)
    (hp : ∀ c d : Char, 128 ≤ c.toNat → 128 ≤ d.toNat → p c = p d) :
    Halts p (Utf8.byteChars rest) := by
  cases rest with
  | nil => trivial
  | cons c rest =>
    have hc : p c = false := h
    rcases byteChars_cons c rest with ⟨-, hcons⟩ | ⟨hwide, d, ds, hcons, hds⟩
    · rw [hcons]
      exact hc
    · rw [hcons]
      exact (hp d c (hds d List.mem_cons_self) hwide).trans hc

/-- Runs of a class of ASCII are the same runs of bytes. -/
theorem run_byteChars {p : Char → Bool} (hp : ∀ c : Char, 128 ≤ c.toNat → p c = false)
    (text : List Char) (n : Nat) :
    ((byteChars text).take n).takeWhile p = (text.take n).takeWhile p := by
  induction text generalizing n with
  | nil => rfl
  | cons c text ih =>
    cases n with
    | zero => rfl
    | succ n =>
      rcases byteChars_cons c text with ⟨-, hcons⟩ | ⟨hwide, d, ds, hcons, hds⟩
      · rw [hcons, List.take_succ_cons, List.take_succ_cons, List.takeWhile_cons,
          List.takeWhile_cons, ih]
      · have hd := hp d (hds d List.mem_cons_self)
        rw [hcons, List.cons_append, List.take_succ_cons, List.take_succ_cons,
          List.takeWhile_cons_of_neg (Bool.eq_false_iff.1 hd),
          List.takeWhile_cons_of_neg (Bool.eq_false_iff.1 (hp c hwide))]

end Daybook.Text

namespace Daybook.Numeral

open Text.Utf8

theorem NoDigit.byteChars {rest : List Char} (h : NoDigit rest) :
    NoDigit (Text.Utf8.byteChars rest) := by
  cases rest with
  | nil => trivial
  | cons c rest =>
    rcases byteChars_cons c rest with ⟨-, hcons⟩ | ⟨-, d, ds, hcons, hds⟩
    · rw [hcons]
      exact h
    · have hd := hds d List.mem_cons_self
      rw [hcons]
      change Digit.ofChar? d = none
      rw [Digit.ofChar?, dif_neg (by omega)]

end Daybook.Numeral

namespace Daybook.Token

open Text Text.Utf8

/-! ## Tokens as bytes -/

/-- The token as bytes that are given as characters. All tokens but two kinds are ASCII. -/
def encoded : Token → Token
  | .string content => .string (String.ofList (byteChars content.toList))
  | .comment content => .comment (String.ofList (byteChars content.toList))
  | t => t

theorem isUpper_of_wide {c : Char} (h : 128 ≤ c.toNat) : c.isUpper = false := by
  rw [Bool.eq_false_iff, Ne, isUpper_iff]; omega

theorem isLower_of_wide {c : Char} (h : 128 ≤ c.toNat) : c.isLower = false := by
  rw [Bool.eq_false_iff, Ne, isLower_iff]; omega

/-- Outside of ASCII no byte belongs to an identifier. -/
theorem isIdentifierChar_of_wide {c : Char} (h : 128 ≤ c.toNat) : isIdentifierChar c = false := by
  have hunderscore : c ≠ '_' := by
    rintro rfl
    exact absurd h (by decide)
  rw [isIdentifierChar, isLower_of_wide h, decide_eq_false hunderscore]
  rfl

/-- Identifiers are written in ASCII. -/
theorem lt_of_isIdentifierChar {c : Char} (h : isIdentifierChar c = true) : c.toNat < 128 := by
  by_contra hwide
  rw [isIdentifierChar_of_wide (by omega)] at h
  cases h

theorem lt_of_mem_toChars {ds : Numeral} {c : Char} (h : c ∈ ds.toChars) : c.toNat < 128 := by
  obtain ⟨d, -, rfl⟩ := List.mem_map.1 h
  exact (by decide : ∀ d : Digit, d.toChar.toNat < 128) d

/-- Numbers are written in ASCII. -/
theorem lt_of_mem_decimal {d : Decimal} {c : Char} (h : c ∈ d.toChars) : c.toNat < 128 := by
  rw [Decimal.toChars] at h
  rcases List.mem_append.1 h with h | hplaces
  · rcases List.mem_append.1 h with hsign | hwhole
    · split at hsign
      · rw [List.mem_singleton.1 hsign]
        decide
      · cases hsign
    · exact lt_of_mem_toChars hwhole
  · rw [Decimal.placesText] at hplaces
    split at hplaces
    · cases hplaces
    · rcases List.mem_cons.1 hplaces with rfl | hmem
      · decide
      · exact lt_of_mem_toChars hmem

theorem lt_of_isSegment {name : List Char} (h : isSegment name = true) :
    ∀ c ∈ name, c.toNat < 128 := by
  intro c hc
  exact lt_of_isIdentifierChar (isIdentifierChar_of_mem h c hc)

/-- Currency codes are written in ASCII. -/
theorem lt_of_isCurrencyCode {code : List Char} (h : isCurrencyCode code = true) :
    ∀ c ∈ code, c.toNat < 128 := by
  simp only [isCurrencyCode, Bool.and_eq_true] at h
  intro c hc
  have hupper := List.all_eq_true.1 h.2 c hc
  rw [isUpper_iff] at hupper
  omega

/-- Quotes stay where they are when a string is encoded. -/
theorem byteChars_quoted (content : List Char) :
    byteChars ('"' :: content ++ ['"']) = '"' :: byteChars content ++ ['"'] := by
  have hquote : byteChars ['"'] = ['"'] :=
    byteChars_of_ascii (List.forall_mem_singleton.2 (by decide))
  rw [byteChars_append, hquote]
  rfl

/-- An encoded token has the bytes of the token. -/
theorem chars_encoded {t : Token} (h : t.WellFormed) : t.encoded.chars = byteChars t.chars := by
  cases t with
  | identifier name => exact (byteChars_of_ascii (lt_of_isSegment h)).symm
  | number literal => exact (byteChars_of_ascii fun c hc => lt_of_mem_decimal hc).symm
  | currency code => exact (byteChars_of_ascii (lt_of_isCurrencyCode h)).symm
  | movement symbol =>
    rcases h with rfl | rfl
    · rfl
    · rfl
  | separator symbol =>
    rcases h with rfl | rfl
    · rfl
    · rfl
  | string content =>
    rw [chars, byteChars_quoted, encoded, chars, String.toList_ofList]
  | comment content =>
    rw [encoded, chars, String.toList_ofList]
    rfl

/-- An encoded token is well formed as a text of bytes. -/
theorem wellFormed_encoded {t : Token} (h : t.WellFormed) : t.encoded.WellFormed := by
  cases t with
  | string content =>
    intro hmem
    rw [String.toList_ofList] at hmem
    exact h (mem_of_mem_byteChars hmem (by decide))
  | comment content =>
    intro hmem
    rw [String.toList_ofList] at hmem
    exact h (mem_of_mem_byteChars hmem (by decide))
  | _ => exact h

/-- Where a token ends before a text, its bytes end before those of the text. -/
theorem endsBefore_encoded {t : Token} {rest : List Char} (h : t.EndsBefore rest) :
    t.encoded.EndsBefore (byteChars rest) := by
  cases t with
  | identifier name =>
    refine Halts.byteChars h ?_
    intro c d hc hd
    rw [isIdentifierChar_of_wide hc, isIdentifierChar_of_wide hd]
  | number literal =>
    obtain ⟨hdigit, hpoint⟩ := h
    refine ⟨hdigit.byteChars, ?_⟩
    intro hplaces cs hcs
    -- The point is a character of the text, because it is ASCII.
    cases rest with
    | nil => cases hcs
    | cons c rest =>
      rcases byteChars_cons c rest with ⟨-, hcons⟩ | ⟨-, d, ds, hcons, hds⟩
      · rw [hcons] at hcs
        obtain ⟨rfl, rfl⟩ := List.cons.inj hcs
        exact (hpoint hplaces rest rfl).byteChars
      · rw [hcons] at hcs
        have hwide := hds d List.mem_cons_self
        rw [(List.cons.inj hcs).1] at hwide
        exact absurd hwide (by decide)
  | currency code =>
    refine Halts.byteChars h ?_
    intro c d hc hd
    rw [isUpper_of_wide hc, isUpper_of_wide hd]
  | comment content =>
    refine Halts.byteChars h ?_
    intro c d hc hd
    have hne (e : Char) (he : 128 ≤ e.toNat) : decide (e ≠ '\n') = true := by
      rw [decide_eq_true_eq]
      rintro rfl
      exact absurd he (by decide)
    rw [hne c hc, hne d hd]
  | _ => trivial

theorem decodeString_byteChars (s : String) :
    decodeString (String.ofList (byteChars s.toList)) = s := by
  rw [decodeString, String.toList_ofList, decodeChars_byteChars, String.ofList_toList]

/-- Decoding leaves a text of ASCII as it is. -/
theorem decodeString_of_ascii {s : String} (h : ∀ c ∈ s.toList, c.toNat < 128) :
    decodeString s = s := by
  have hdecode := decodeString_byteChars s
  rwa [byteChars_of_ascii h, String.ofList_toList] at hdecode

/-- A token is decoded from its encoded form. -/
theorem decoded_encoded {t : Token} (h : t.WellFormed) : t.encoded.decoded = t := by
  cases t with
  | identifier name => exact congrArg identifier (decodeString_of_ascii (lt_of_isSegment h))
  | number literal => rfl
  | currency code => exact congrArg currency (decodeString_of_ascii (lt_of_isCurrencyCode h))
  | movement symbol =>
    refine congrArg movement (decodeString_of_ascii ?_)
    rcases h with rfl | rfl
    · exact List.forall_mem_singleton.2 (by decide)
    · exact List.forall_mem_singleton.2 (by decide)
  | separator symbol =>
    refine congrArg separator (decodeString_of_ascii ?_)
    rcases h with rfl | rfl
    · exact List.forall_mem_singleton.2 (by decide)
    · exact List.forall_mem_singleton.2 (by decide)
  | string content => exact congrArg string (decodeString_byteChars content)
  | comment content => exact congrArg comment (decodeString_byteChars content)

/-- Where no token of a text begins, none begins in its bytes. -/
theorem take?_byteChars_eq_none {c : Char} {cs : List Char} (hascii : c.toNat < 128)
    (h : take? (c :: cs) = none) : take? (c :: byteChars cs) = none := by
  have hcons : byteChars (c :: cs) = c :: byteChars cs := by
    rcases byteChars_cons c cs with ⟨-, hcons⟩ | ⟨hwide, -⟩
    · exact hcons
    · omega
  refine take?_eq_none_of h ?_ ?_ ?_
  · intro _ hhead
    cases cs with
    | nil => cases hhead
    | cons d cs =>
      rcases byteChars_cons d cs with ⟨-, hcons⟩ | ⟨-, e, es, hcons, hes⟩
      · rw [hcons] at hhead
        exact hhead
      · rw [hcons] at hhead
        have hwide := hes e List.mem_cons_self
        rw [Option.some.inj hhead] at hwide
        exact absurd hwide (by decide)
  · intro _
    rw [← hcons]
    exact takeCurrency?_eq_none_of_run (run_byteChars (fun d hd => isUpper_of_wide hd) _ 6).symm
  · intro _ hquote hmem
    exact hquote (mem_of_mem_byteChars hmem (by decide))

/-- No token begins with a byte outside of ASCII. -/
theorem take?_of_wide {c : Char} (h : 128 ≤ c.toNat) (cs : List Char) : take? (c :: cs) = none := by
  have hne (d : Char) (hd : d.toNat < 128) : c ≠ d := by
    rintro rfl
    omega
  have hdigit : c.isDigit = false := by
    rw [Bool.eq_false_iff, Ne, isDigit_iff]; omega
  rw [take?]
  · simp only [isUpper_of_wide h, isLower_of_wide h, hdigit, hne '<' (by decide),
      hne '>' (by decide), hne '"' (by decide), hne ':' (by decide), hne '-' (by decide),
      Bool.false_eq_true, if_false, or_self]
  · intro _ hc
    exact absurd hc (hne '/' (by decide))

end Daybook.Token

namespace Daybook.Piece

open Text Text.Utf8

/-! ## Pieces as bytes -/

/-- The piece as bytes that are given as characters. -/
def encoded : Piece → Piece
  | .blank text => .blank (byteChars text)
  | .token t => .token t.encoded
  | .unreadable text => .unreadable (byteChars text)

/-- An encoded piece has the bytes of the piece. -/
theorem chars_encoded {p : Piece} {rest : List Char} (h : p.EndsBefore rest) :
    p.encoded.chars = byteChars p.chars := by
  cases p with
  | token t => exact Token.chars_encoded h.1
  | _ => rfl

theorem byteChars_ne_nil {text : List Char} (h : text ≠ []) : byteChars text ≠ [] := by
  have hpos := width_pos h
  rw [← length_byteChars] at hpos
  exact List.ne_nil_of_length_pos hpos

/-- What can begin a piece can do so as bytes. -/
theorem canBegin_byteChars {text : List Char} (h : canBegin text = true) :
    canBegin (byteChars text) = true := by
  rcases blank_or_token_of_canBegin h with ⟨c, cs, rfl, hblank⟩ | ⟨t, rest, rfl, hwf, hends⟩
  · rcases byteChars_cons c cs with ⟨-, hcons⟩ | ⟨hwide, -⟩
    · rw [hcons]
      exact canBegin_of_isBlank hblank _
    · rw [isBlank_of_wide hwide] at hblank
      cases hblank
  · rw [byteChars_append, ← Token.chars_encoded hwf]
    exact canBegin_of_token (Token.wellFormed_encoded hwf) (Token.endsBefore_encoded hends)

/-- Bytes outside of ASCII can be put in front of a run without beginning anything. -/
theorem barren_of_wide {ds text rest : List Char} (hds : ∀ d ∈ ds, 128 ≤ d.toNat)
    (h : Barren text rest) : Barren (ds ++ text) rest := by
  induction ds with
  | nil => exact h
  | cons d ds ih =>
    obtain ⟨hd, hmore⟩ := List.forall_mem_cons.1 hds
    exact ⟨canBegin_cons.2 ⟨isBlank_of_wide hd, Token.take?_of_wide hd _⟩, ih hmore⟩

/-- The bytes of a run in which nothing begins are such a run. -/
theorem Barren.byteChars {text rest : List Char} (h : Barren text rest) :
    Barren (Utf8.byteChars text) (Utf8.byteChars rest) := by
  induction text with
  | nil =>
    rcases h with rfl | hbegin
    · exact .inl rfl
    · exact .inr (canBegin_byteChars hbegin)
  | cons c text ih =>
    obtain ⟨hblank, hnone⟩ := canBegin_cons.1 h.1
    rcases byteChars_cons c text with ⟨hascii, hcons⟩ | ⟨-, d, ds, hcons, hds⟩
    · rw [hcons]
      refine ⟨canBegin_cons.2 ⟨hblank, ?_⟩, ih h.2⟩
      rw [← byteChars_append]
      exact Token.take?_byteChars_eq_none hascii hnone
    · -- No byte of a longer character begins anything.
      rw [hcons]
      exact barren_of_wide hds (ih h.2)

/-- Where a piece ends before a text, its bytes end before those of the text. For unreadable characters this needs that
no piece begins inside of a character. -/
theorem endsBefore_encoded {p : Piece} {rest : List Char} (h : p.EndsBefore rest) :
    p.encoded.EndsBefore (byteChars rest) := by
  cases p with
  | blank text =>
    obtain ⟨hne, hblank, hrest⟩ := h
    refine ⟨byteChars_ne_nil hne, ?_, hrest.byteChars ?_⟩
    · have hascii : ∀ c ∈ text, c.toNat < 128 := by
        intro c hc
        have := toNat_of_isBlank (hblank c hc)
        omega
      rw [byteChars_of_ascii hascii]
      exact hblank
    · intro c d hc hd
      rw [isBlank_of_wide hc, isBlank_of_wide hd]
  | token t => exact ⟨Token.wellFormed_encoded h.1, Token.endsBefore_encoded h.2⟩
  | unreadable text => exact ⟨byteChars_ne_nil h.1, h.2.byteChars⟩

/-- **No character is cut**: the pieces of a text, as bytes, are cut as pieces are. -/
theorem Cut.encoded {ps : List Piece} (h : Cut ps) :
    Cut (ps.map Piece.encoded)
      ∧ (ps.map Piece.encoded).flatMap chars = byteChars (ps.flatMap chars) := by
  induction ps with
  | nil => exact ⟨trivial, rfl⟩
  | cons p ps ih =>
    obtain ⟨hcut, hchars⟩ := ih h.2
    rw [List.map_cons, List.flatMap_cons, List.flatMap_cons, byteChars_append, hchars]
    refine ⟨⟨?_, hcut⟩, by rw [chars_encoded h.1]⟩
    rw [hchars]
    exact endsBefore_encoded h.1

/-- A piece is decoded from its encoded form. -/
theorem decoded_encoded {p : Piece} {rest : List Char} (h : p.EndsBefore rest) :
    p.encoded.decoded = p := by
  cases p with
  | token t => exact congrArg token (Token.decoded_encoded h.1)
  | blank text => exact congrArg blank (decodeChars_byteChars text)
  | unreadable text => exact congrArg unreadable (decodeChars_byteChars text)

end Daybook.Piece

namespace Daybook.Lexed

open Piece Text.Utf8

/-- Encoded pieces are placed by their bytes where the pieces are placed by the widths of their characters. -/
theorem placeBytes_encoded {ps : List Piece} (h : Cut ps) (offset : Nat) :
    placeBytes offset (ps.map Piece.encoded) = place offset ps := by
  induction ps generalizing offset with
  | nil => rfl
  | cons p ps ih =>
    have hlength : p.encoded.chars.length = width p.chars := by
      rw [chars_encoded h.1, length_byteChars]
    simp only [List.map_cons, placeBytes, place, hlength, ih h.2, decoded_encoded h.1]

/-- **Reading the bytes of a source is reading its characters.** -/
theorem ofBytes_encode (source : String) : ofBytes (encode source.toList) = of source := by
  obtain ⟨hcut, hchars⟩ := (cut_split source.toList).encoded
  rw [flatMap_chars_split] at hchars
  have hsplit : split (byteChars source.toList) = (split source.toList).map Piece.encoded := by
    rw [← hchars]
    exact split_of_cut hcut
  rw [ofBytes, ← byteChars, hsplit, placeBytes_encoded (cut_split source.toList)]
  rfl

end Daybook.Lexed
