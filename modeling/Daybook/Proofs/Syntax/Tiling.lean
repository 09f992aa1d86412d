import Daybook.Proofs.Syntax.Bytes
import Daybook.Proofs.Syntax.Placing

/-!
What is read tiles the source.

The tokens and the unreadable runs of a source, put in one order (`Lexed.regions`), are pieces of it at
their places, and so are the white spaces between them. So no byte is read twice, none but white space is
left out, no character is cut, and each of them has the text that stands in its span. Main statement:
`tiles_ofBytes`.
-/

namespace Daybook

namespace Lexed

open Piece Text.Utf8

/-- What is written at a token. -/
def tokenRegion (t : Spanned Token) : Spanned String :=
  ⟨t.value.text, t.span⟩

/-- What is written at an unreadable run. -/
def errorRegion (e : LexError) : Spanned String :=
  ⟨e.found, e.span⟩

/-- The tokens and the unreadable runs as texts with their spans, merged by where they start. -/
def regions (l : Lexed) : List (Spanned String) :=
  (l.tokens.map tokenRegion).merge (l.errors.map errorRegion) fun a b =>
    a.span.start ≤ b.span.start

/-- What is read from the source tiles it. -/
structure Tiles (source : String) (l : Lexed) : Prop where
  nonempty : ∀ r ∈ l.regions, r.span.start < r.span.stop
  apart : Spanned.Apart l.regions
  apart_tokens : Spanned.Apart l.tokens
  apart_errors : l.errors.Pairwise fun a b => a.span.stop ≤ b.span.start
  inside : ∀ r ∈ l.regions, r.span.stop ≤ width source.toList
  boundary : ∀ r ∈ l.regions,
    IsBoundary source.toList r.span.start ∧ IsBoundary source.toList r.span.stop
  /-- A byte outside of all regions is one of the blanks of ASCII. -/
  blank : ∀ n byte, (encode source.toList)[n]? = some byte →
    (∀ r ∈ l.regions, n < r.span.start ∨ r.span.stop ≤ n) → byte ∈ [9, 10, 11, 12, 13, 32]
  /-- The bytes of a region are those of its text, so that reading them replaces nothing. -/
  bytes : ∀ r ∈ l.regions, r.span.bytes source = encode r.value.toList
  slice : ∀ r ∈ l.regions, r.span.slice source = r.value

/-! ## The regions in order -/

section Merge

variable {α : Type} {le : α → α → Bool} {x : α} {xs ys : List α}

/-- What is not after the other list comes first in the merge. -/
theorem cons_merge (h : ∀ y ∈ ys, le x y = true) :
    (x :: xs).merge ys le = x :: xs.merge ys le := by
  cases ys with
  | nil => rw [List.merge_right, List.merge_right]
  | cons y ys => rw [List.cons_merge_cons, if_pos (h y List.mem_cons_self)]

theorem merge_cons (h : ∀ y ∈ ys, le y x = false) :
    ys.merge (x :: xs) le = x :: ys.merge xs le := by
  cases ys with
  | nil => rw [List.nil_merge, List.nil_merge]
  | cons y ys =>
    rw [List.cons_merge_cons, if_neg (Bool.eq_false_iff.1 (h y List.mem_cons_self))]

end Merge

/-- The region that a piece is. -/
def region? (p : Spanned Piece) : Option (Spanned String) :=
  match p.value with
  | .blank _ => none
  | .token t => some ⟨t.text, p.span⟩
  | .unreadable text => some ⟨String.ofList text, p.span⟩

/-- Regions are made of the characters of their pieces. -/
theorem eq_of_region? {p : Spanned Piece} {r : Spanned String} (h : region? p = some r) :
    r = ⟨String.ofList p.value.chars, p.span⟩ := by
  obtain ⟨piece, span⟩ := p
  cases piece with
  | blank text => cases h
  | token t => exact (Option.some.inj h).symm
  | unreadable text => exact (Option.some.inj h).symm

/-- Merging finds the order of the text. -/
theorem regions_ofPlaced {ps : List (Spanned Piece)} (happart : Spanned.Apart ps)
    (hne : ∀ p ∈ ps, p.span.start < p.span.stop) :
    (ofPlaced ps).regions = ps.filterMap region? := by
  induction ps with
  | nil => exact List.nil_merge []
  | cons p ps ih =>
    obtain ⟨hbehind, hps⟩ := List.pairwise_cons.1 happart
    obtain ⟨hp, hmore⟩ := List.forall_mem_cons.1 hne
    have hrest := ih hps hmore
    obtain ⟨piece, span⟩ := p
    cases piece with
    | blank text => exact hrest
    | token t =>
      -- No error behind the token starts before it.
      have hle : ∀ y ∈ (ofPlaced ps).errors.map errorRegion,
          decide (span.start ≤ y.span.start) = true := by
        intro y hy
        obtain ⟨e, he, rfl⟩ := List.mem_map.1 hy
        obtain ⟨q, hq, herror⟩ := List.mem_filterMap.1 he
        obtain ⟨text, rfl, -⟩ := eq_of_error? herror
        have hstart : span.stop ≤ e.span.start := hbehind _ hq
        exact decide_eq_true (Nat.le_trans (Nat.le_of_lt hp) hstart)
      exact (cons_merge hle).trans (congrArg _ hrest)
    | unreadable text =>
      -- All tokens behind the run start after it, because it is not empty.
      have hgt : ∀ y ∈ (ofPlaced ps).tokens.map tokenRegion,
          decide (y.span.start ≤ span.start) = false := by
        intro y hy
        obtain ⟨t, ht, rfl⟩ := List.mem_map.1 hy
        obtain ⟨q, hq, htoken⟩ := List.mem_filterMap.1 ht
        rw [eq_of_token? htoken] at hq
        have hstart : span.stop ≤ t.span.start := hbehind _ hq
        exact decide_eq_false (Nat.not_le.2 (Nat.lt_of_lt_of_le hp hstart))
      exact (merge_cons hgt).trans (congrArg _ hrest)

/-! ## What the pieces are -/

/-- White space is made of blanks. -/
theorem isBlank_of_mem_cut {ps : List Piece} (h : Cut ps) {text : List Char}
    (hmem : .blank text ∈ ps) : ∀ c ∈ text, Text.isBlank c = true := by
  induction ps with
  | nil => cases hmem
  | cons p ps ih =>
    rcases List.mem_cons.1 hmem with rfl | hmem
    · exact h.1.2.1
    · exact ih h.2 hmem

/-- The blanks of ASCII as bytes. -/
theorem isBlank_byteChar_iff {byte : UInt8} :
    Text.isBlank (byteChar byte) = true ↔ byte ∈ [9, 10, 11, 12, 13, 32] := by
  constructor
  · intro h
    have hnat := Text.toNat_of_isBlank h
    rw [toNat_byteChar] at hnat
    rw [← UInt8.ofNat_toNat (x := byte)]
    generalize byte.toNat = n at hnat
    have hcases : n = 9 ∨ n = 10 ∨ n = 11 ∨ n = 12 ∨ n = 13 ∨ n = 32 := by omega
    rcases hcases with rfl | rfl | rfl | rfl | rfl | rfl
    all_goals decide
  · intro h
    simp only [List.mem_cons, List.not_mem_nil, or_false] at h
    rcases h with rfl | rfl | rfl | rfl | rfl | rfl
    all_goals decide

/-- Blanks are encoded by the six bytes of ASCII for them. -/
theorem mem_of_isBlank {text : List Char} (h : ∀ c ∈ text, Text.isBlank c = true) {byte : UInt8}
    (hbyte : byte ∈ encode text) : byte ∈ [9, 10, 11, 12, 13, 32] := by
  obtain ⟨c, hc, hmem⟩ := List.mem_flatMap.1 hbyte
  have hnat := Text.toNat_of_isBlank (h c hc)
  rw [utf8EncodeChar_of_ascii (by omega), List.mem_singleton] at hmem
  rw [← isBlank_byteChar_iff, byteChar, hmem, UInt8.toNat_ofNat', Nat.mod_eq_of_lt (by omega),
    Char.ofNat_toNat]
  exact h c hc

/-! ## The regions of a source -/

section Source

variable (source : String)

/-- The regions of a source, in order, are its pieces without the white space. -/
theorem regions_of :
    (of source).regions = (place 0 (split source.toList)).filterMap region? :=
  regions_ofPlaced (apart_place 0 _) fun _ hp =>
    lt_of_mem_place (chars_ne_nil_of_mem_cut (cut_split source.toList)) hp

/-- **A region is a text between two others**, and not empty. -/
theorem exists_middle {r : Spanned String} (h : r ∈ (of source).regions) :
    ∃ before after, source.toList = before ++ r.value.toList ++ after
      ∧ r.span.start = width before ∧ r.span.stop = width before + width r.value.toList
      ∧ r.span.start < r.span.stop := by
  rw [regions_of] at h
  obtain ⟨p, hp, hregion⟩ := List.mem_filterMap.1 h
  obtain ⟨before, after, hsource, hstart, hstop⟩ := exists_middle_of_mem_place hp
  rw [eq_of_region? hregion, String.toList_ofList]
  have hne := chars_ne_nil_of_mem_cut (cut_split source.toList)
  exact ⟨before, after, hsource, hstart, hstop, lt_of_mem_place hne hp⟩

/-- **Outside of all regions there is white space only.** -/
theorem mem_of_outside {n : Nat} {byte : UInt8} (h : (encode source.toList)[n]? = some byte)
    (houtside : ∀ r ∈ (of source).regions, n < r.span.start ∨ r.span.stop ≤ n) :
    byte ∈ [9, 10, 11, 12, 13, 32] := by
  rw [← flatMap_chars_split source.toList] at h
  obtain ⟨p, hp, hstart, hstop, hmem⟩ := @exists_mem_place 0 _ _ _ h
  -- The piece with this byte is no region.
  have hnone : region? p = none := by
    by_contra hsome
    obtain ⟨r, hr⟩ := Option.ne_none_iff_exists'.1 hsome
    have hregion : r ∈ (of source).regions := by
      rw [regions_of]
      exact List.mem_filterMap.2 ⟨p, hp, hr⟩
    have hoff := houtside r hregion
    rw [eq_of_region? hr] at hoff
    simp only at hoff
    omega
  obtain ⟨piece, span⟩ := p
  cases piece with
  | blank text =>
    have hcut := cut_split source.toList
    exact mem_of_isBlank (isBlank_of_mem_cut hcut (value_mem_of_mem_place hp)) hmem
  | token t => cases hnone
  | unreadable text => cases hnone

/-- Regions do not overlap. -/
theorem apart_regions : Spanned.Apart (of source).regions := by
  rw [regions_of]
  refine (apart_place 0 _).filterMap ?_
  intro p r hr
  rw [eq_of_region? hr]

/-- Tokens do not overlap. -/
theorem apart_tokens : Spanned.Apart (of source).tokens := by
  refine (apart_place 0 _).filterMap ?_
  intro p t ht
  rw [eq_of_token? ht]

/-- Lexical errors do not overlap. -/
theorem apart_errors : (of source).errors.Pairwise fun a b => a.span.stop ≤ b.span.start := by
  refine List.Pairwise.filterMap error? ?_ (apart_place 0 _)
  intro p q hpq e he f hf
  obtain ⟨text, rfl, -⟩ := eq_of_error? he
  obtain ⟨behind, rfl, -⟩ := eq_of_error? hf
  exact hpq

/-- The pieces of a text tile it. -/
theorem tiles_of : Tiles source (of source) where
  nonempty := by
    intro r hr
    obtain ⟨-, -, -, -, -, hlt⟩ := exists_middle source hr
    exact hlt
  apart := apart_regions source
  apart_tokens := apart_tokens source
  apart_errors := apart_errors source
  inside := by
    intro r hr
    obtain ⟨before, after, hsource, hstart, hstop, -⟩ := exists_middle source hr
    exact (Span.isBoundary_of_append hsource hstart hstop).2.le_width
  boundary := by
    intro r hr
    obtain ⟨before, after, hsource, hstart, hstop, -⟩ := exists_middle source hr
    exact Span.isBoundary_of_append hsource hstart hstop
  blank := by
    intro n byte hbyte houtside
    exact mem_of_outside source hbyte houtside
  bytes := by
    intro r hr
    obtain ⟨before, after, hsource, hstart, hstop, -⟩ := exists_middle source hr
    exact Span.bytes_of_append hsource hstart hstop
  slice := by
    intro r hr
    obtain ⟨before, after, hsource, hstart, hstop, -⟩ := exists_middle source hr
    rw [Span.slice_of_append hsource hstart hstop, String.ofList_toList]

end Source

/-- **What is read tiles the source.** The tokens and the unreadable runs of the bytes of a source, merged
by where they start, are non-empty, apart from each other, and made of whole characters. Outside of them
there is white space only, and each of them has the text that stands in its span. -/
theorem tiles_ofBytes (source : String) : Tiles source (ofBytes (encode source.toList)) := by
  rw [ofBytes_encode]
  exact tiles_of source

end Lexed

end Daybook
