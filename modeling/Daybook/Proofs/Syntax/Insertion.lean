import Daybook.Proofs.Syntax.Relocation

/-!
Layout that is put into a source.

Between two pieces of a source, or inside of white space, a line feed, white space or a comment, and
another line feed change nothing in front of them, unless an unreadable run that ends there has a currency
at its end (`Leads.separable`), and they leave nothing open for what stands behind them (`readAt_layout`).
So what is read is what was read before, that behind the place further down (`of_insert`).
-/

namespace Daybook

namespace Span

/-- Whether the offset lies between two bytes of the span. -/
def HasInside (s : Span) (offset : Nat) : Prop :=
  s.start < offset ∧ offset < s.stop

instance (s : Span) (offset : Nat) : Decidable (s.HasInside offset) :=
  inferInstanceAs (Decidable (s.start < offset ∧ offset < s.stop))

/-- The span, moved so many bytes if it starts at the offset or behind it. -/
def shiftFrom (offset n : Nat) (s : Span) : Span :=
  if offset ≤ s.start then s.shift n else s

end Span

namespace Text

/-- A line feed, then white space or a comment without a quote, and then a line feed. -/
inductive IsLayout : List Char → Prop
  | blank (text : List Char) (h : ∀ c ∈ text, isBlank c = true) :
    IsLayout ('\n' :: text ++ ['\n'])
  | comment (text : List Char) (hline : '\n' ∉ text) (hquote : '"' ∉ text) :
    IsLayout ('\n' :: '/' :: '/' :: text ++ ['\n'])

/-- Layout begins a line, whatever stands behind it. -/
theorem IsLayout.startsLine {layout : List Char} (h : IsLayout layout) (behind : List Char) :
    StartsLine (layout ++ behind) := by
  cases h with
  | blank text _ => rfl
  | comment text _ _ => rfl

/-- Layout has no quotes. -/
theorem IsLayout.not_mem {layout : List Char} (h : IsLayout layout) : '"' ∉ layout := by
  cases h with
  | blank text hblank =>
    intro hmem
    rcases List.mem_append.1 hmem with hfront | hlast
    · rcases List.mem_cons.1 hfront with heq | htext
      · cases heq
      · exact absurd (hblank _ htext) (by decide)
    · cases List.mem_singleton.1 hlast
  | comment text hline hquote => simp [hquote]

end Text

namespace Piece

open Text Text.Utf8

/-- **A text that is cut where no piece is torn**, white space apart, has pieces in front of the cut. -/
theorem exists_leads {offset : Nat} {ps : List Piece} (h : Cut ps) {before after : List Char}
    (htext : ps.flatMap chars = before ++ after)
    (hinside : ∀ p ∈ Lexed.place offset ps, (∃ text, p.value = .blank text)
      ∨ ¬ p.span.HasInside (offset + width before)) :
    ∃ qs, qs.flatMap chars = before ∧ Leads qs after := by
  induction ps generalizing offset before with
  | nil =>
    obtain ⟨rfl, -⟩ := List.append_eq_nil_iff.1 htext.symm
    exact ⟨[], rfl, trivial⟩
  | cons p ps ih =>
    obtain ⟨hp, hcut⟩ := h
    rw [List.flatMap_cons] at htext
    obtain ⟨hfirst, hothers⟩ := List.forall_mem_cons.1 hinside
    rcases List.append_eq_append_iff.1 htext with ⟨inner, rfl, hrest⟩ | ⟨inner, hchars, rfl⟩
    -- The cut is behind the first piece.
    · have hwidth : offset + width (p.chars ++ inner) = offset + width p.chars + width inner := by
        rw [width_append, Nat.add_assoc]
      rw [hwidth] at hothers
      obtain ⟨qs, rfl, hqs⟩ := ih hcut hrest hothers
      refine ⟨p :: qs, rfl, ?_, hqs⟩
      rw [← hrest]
      exact hp.precedes
    -- The cut is in the first piece, or at one of its ends.
    · by_cases hbefore : before = []
      · exact ⟨[], hbefore.symm, trivial⟩
      by_cases hinner : inner = []
      · rw [hinner, List.append_nil] at hchars
        refine ⟨[p], ?_, ?_, trivial⟩
        · rw [List.flatMap_singleton, hchars]
        · rw [hinner]
          exact hp.precedes
      have htorn : (⟨offset, offset + width p.chars, Nat.le_add_right _ _⟩ : Span).HasInside
          (offset + width before) := by
        have hwidth := width_append before inner
        have hpos := width_pos hbefore
        have hpos' := width_pos hinner
        rw [← hchars] at hwidth
        have hstart : offset < offset + width before := by omega
        have hstop : offset + width before < offset + width p.chars := by omega
        exact ⟨hstart, hstop⟩
      obtain ⟨text, htextp⟩ := hfirst.resolve_right (not_not.2 htorn)
      obtain rfl : p = .blank text := htextp
      refine ⟨[.blank before], List.flatMap_singleton .., ⟨hbefore, ?_⟩, trivial⟩
      intro c hc
      refine hp.2.1 c ?_
      rw [← show chars (.blank text) = text from rfl, hchars]
      exact List.mem_append_left inner hc

end Piece

namespace Lexed

open Piece Parsed Text Text.Utf8

/-! ## Reading layout -/

/-- **Layout is read as comments**, and what stands behind it is read as if it began there. -/
theorem readAt_layout {layout : List Char} (h : IsLayout layout) (offset : Nat) (behind : List Char) :
    ∃ comments : List (Spanned Token), (∀ t ∈ comments, t.value.isComment = true)
      ∧ readAt offset (layout ++ behind)
        = (readAt (offset + width layout) behind).prepend comments := by
  cases h with
  | blank text hblank =>
    refine ⟨[], by simp, ?_⟩
    have hall : ∀ c ∈ '\n' :: text ++ ['\n'], isBlank c = true := by
      intro c hc
      rcases List.mem_append.1 hc with hfront | hlast
      · rcases List.mem_cons.1 hfront with rfl | hmem
        · decide
        · exact hblank c hmem
      · rw [List.mem_singleton.1 hlast]
        decide
    exact readAt_blanks hall offset behind
  | comment text hline hquote =>
    have hwf : (Token.comment (String.ofList text)).WellFormed := by
      rw [Token.WellFormed, String.toList_ofList]
      exact hline
    have hends : (Token.comment (String.ofList text)).EndsBefore ('\n' :: behind) := by
      simp [Token.EndsBefore, Halts]
    have hchars : (Token.comment (String.ofList text)).chars = '/' :: '/' :: text := by
      rw [Token.chars, String.toList_ofList]
    have htext : '\n' :: '/' :: '/' :: text ++ ['\n'] ++ behind
        = '\n' :: ((Token.comment (String.ofList text)).chars ++ '\n' :: behind) := by
      rw [hchars]
      simp
    have hwidth : width ('\n' :: '/' :: '/' :: text ++ ['\n'])
        = '\n'.utf8Size + width (Token.comment (String.ofList text)).chars + '\n'.utf8Size := by
      rw [hchars]
      simp [Nat.add_assoc]
    rw [htext, readAt_blank rfl, readAt_token hwf hends, readAt_blank rfl, hwidth, ← Nat.add_assoc,
      ← Nat.add_assoc]
    refine ⟨_, ?_, rfl⟩
    intro t ht
    rw [List.mem_singleton.1 ht, Token.isComment]

/-! ## Layout in a source -/

theorem relocate_append (f : Span → Span) (l m : Lexed) :
    (l.append m).relocate f = (l.relocate f).append (m.relocate f) := by
  simp only [append, relocate, List.map_append]

/-- What is moved depends on where the pieces are. -/
theorem relocate_congr {f g : Span → Span} {ps : List (Spanned Piece)}
    (h : ∀ p ∈ ps, f p.span = g p.span) :
    (ofPlaced ps).relocate f = (ofPlaced ps).relocate g := by
  have hmap : ps.map (Spanned.relocate f) = ps.map (Spanned.relocate g) := by
    refine List.map_congr_left fun p hp => ?_
    rw [Spanned.relocate, Spanned.relocate, h p hp]
  rw [← ofPlaced_relocate, ← ofPlaced_relocate, hmap]

theorem relocate_id (l : Lexed) : l.relocate id = l := by
  have htoken : Spanned.relocate (α := Token) id = id := rfl
  have herror : LexError.relocate id = id := rfl
  rw [relocate, htoken, herror, List.map_id, List.map_id]

/-- What stands in front of a place is not moved, and what stands behind it is. -/
theorem relocate_shiftFrom {qs : List Piece} {after : List Char} (h : Leads qs after) (n : Nat) :
    ((ofPlaced (place 0 qs)).append (readAt (width (qs.flatMap chars)) after)).relocate
        (Span.shiftFrom (width (qs.flatMap chars)) n)
      = (ofPlaced (place 0 qs)).append
          ((readAt (width (qs.flatMap chars)) after).relocate (Span.shift n)) := by
  have hbehind : (readAt (width (qs.flatMap chars)) after).relocate
      (Span.shiftFrom (width (qs.flatMap chars)) n)
        = (readAt (width (qs.flatMap chars)) after).relocate (Span.shift n) := by
    refine relocate_congr fun p hp => ?_
    rw [Span.shiftFrom, if_pos (le_start_of_mem_place hp)]
  have hfront : (ofPlaced (place 0 qs)).relocate (Span.shiftFrom (width (qs.flatMap chars)) n)
      = (ofPlaced (place 0 qs)).relocate id := by
    refine relocate_congr fun p hp => ?_
    have hlt := lt_of_mem_place h.chars_ne_nil hp
    have hstop := stop_le_of_mem_place hp
    rw [Span.shiftFrom, if_neg (by omega), id_eq]
  rw [relocate_append, hbehind, hfront, relocate_id]

/-- An unreadable run that comes last is an error that ends where the pieces do. -/
theorem exists_error_of_getLast? {qs : List Piece} {text : List Char}
    (h : qs.getLast? = some (.unreadable text)) :
    ∃ e ∈ (ofPlaced (place 0 qs)).errors,
      e.span.stop = width (qs.flatMap chars) ∧ e.found = String.ofList text := by
  obtain ⟨init, rfl⟩ := List.getLast?_eq_some_iff.1 h
  refine ⟨⟨⟨width (init.flatMap chars), width (init.flatMap chars) + width text,
    Nat.le_add_right _ _⟩, String.ofList text⟩, ?_, ?_, rfl⟩
  · simp [ofPlaced, place_append, place, error?, chars]
  · rw [List.flatMap_append, width_append, List.flatMap_singleton, chars]

/-- **Layout in a source** adds comments, and moves what stands behind it. -/
theorem of_insert {before after : String} {layout : List Char} (hlayout : IsLayout layout)
    (htokens : ∀ t ∈ (of (before ++ after)).tokens, ¬ t.span.HasInside (width before.toList))
    (herrors : ∀ e ∈ (of (before ++ after)).errors, ¬ e.span.HasInside (width before.toList))
    (hfew : ∀ e ∈ (of (before ++ after)).errors, e.span.stop = width before.toList →
      finalCapitals e.found.toList < 3) :
    ∃ front behind : Lexed, ∃ comments : List (Spanned Token),
      (∀ t ∈ comments, t.value.isComment = true)
      ∧ (of (before ++ after)).relocate (Span.shiftFrom (width before.toList) (width layout))
        = front.append behind
      ∧ of (before ++ String.ofList layout ++ after) = front.append (behind.prepend comments) := by
  have hinside : ∀ p ∈ place 0 (split (before ++ after).toList), (∃ text, p.value = .blank text)
      ∨ ¬ p.span.HasInside (0 + width before.toList) := by
    intro p hp
    rw [Nat.zero_add]
    obtain ⟨piece, span⟩ := p
    cases piece with
    | blank text => exact .inl ⟨text, rfl⟩
    | token t => exact .inr (htokens ⟨t, span⟩ (List.mem_filterMap.2 ⟨_, hp, rfl⟩))
    | unreadable text =>
      exact .inr (herrors ⟨span, String.ofList text⟩ (List.mem_filterMap.2 ⟨_, hp, rfl⟩))
  have htext : (split (before ++ after).toList).flatMap chars = before.toList ++ after.toList := by
    rw [flatMap_chars_split, String.toList_append]
  obtain ⟨qs, hqs, hleads⟩ := exists_leads (cut_split _) htext hinside
  have hold : of (before ++ after) = (ofPlaced (place 0 qs)).append
      (readAt (width before.toList) after.toList) := by
    rw [of_eq_readAt, String.toList_append, ← hqs, readAt_of_leads hleads, Nat.zero_add]
  have hseam : Separable (qs.flatMap chars) after.toList := by
    refine hleads.separable fun text hlast => ?_
    obtain ⟨e, he, hstop, hfound⟩ := exists_error_of_getLast? hlast
    have hcapitals := hfew e (by rw [hold]; exact List.mem_append_left _ he) (by rw [hstop, hqs])
    rwa [hfound, String.toList_ofList] at hcapitals
  have hmore : Leads qs (layout ++ after.toList) := by
    refine hleads.replace (hlayout.startsLine _) hseam ?_
    intro p _ _ _ hnot hmem
    rcases List.mem_append.1 hmem with hmem | hmem
    · exact hlayout.not_mem hmem
    · exact hnot hmem
  obtain ⟨comments, hcomments, hread⟩ :=
    readAt_layout hlayout (width before.toList) after.toList
  refine ⟨ofPlaced (place 0 qs),
    (readAt (width before.toList) after.toList).relocate (Span.shift (width layout)), comments,
    hcomments, ?_, ?_⟩
  · rw [hold, ← hqs, relocate_shiftFrom hleads]
  · rw [of_eq_readAt, String.toList_append, String.toList_append, String.toList_ofList,
      List.append_assoc, ← hqs, readAt_of_leads hmore, Nat.zero_add, hqs, hread, readAt_add]

end Lexed

end Daybook
