import Daybook.Proofs.Source.Relocation
import Daybook.Proofs.Source.Slice
import Daybook.Proofs.Syntax.Seam

/-!
Where the pieces of a text are.

The pieces follow one another without a gap: a piece starts where the text before it ends
(`exists_of_mem_place`), no piece starts before an earlier one has ended (`apart_place`), and every byte of
the text lies in one of them (`exists_mem_place`). Moving the text moves all of its pieces (`place_add`).
-/

namespace Daybook

namespace Spanned

variable {α : Type}

/-- Each span ends before any later one starts. -/
def Apart (ts : List (Spanned α)) : Prop :=
  ts.Pairwise fun a b => a.span.stop ≤ b.span.start

/-- Spans that do not overlap increase. -/
theorem Apart.increasing {ts : List (Spanned α)} (h : Apart ts) : Increasing ts := by
  refine List.Pairwise.imp ?_ h
  intro a b hab
  have ha := a.span.start_le_stop
  have hb := b.span.start_le_stop
  exact ⟨by omega, by omega⟩

/-- Values that end before others start have an extent that does. -/
theorem Apart.extent {ts us : List (Spanned α)} (h : Apart (ts ++ us)) (hts : ts ≠ [])
    (hus : us ≠ []) : (extent ts).stop ≤ (extent us).start := by
  obtain ⟨u, us, rfl⟩ := List.exists_cons_of_ne_nil hus
  obtain ⟨init, t, rfl⟩ : ∃ init t, ts = init ++ [t] :=
    ⟨_, _, (List.dropLast_concat_getLast hts).symm⟩
  obtain ⟨hleft, hright, hcross⟩ := List.pairwise_append.1 h
  rw [extent_stop init (Apart.increasing hleft), extent_start (Apart.increasing hright)]
  exact hcross t (List.mem_append_right _ (List.mem_singleton_self t)) u List.mem_cons_self

/-- Choosing among spans that do not overlap keeps them so. -/
theorem Apart.filterMap {β : Type} {f : Spanned α → Option (Spanned β)} {ts : List (Spanned α)}
    (h : Apart ts) (hf : ∀ t u, f t = some u → u.span = t.span) : Apart (ts.filterMap f) := by
  refine List.Pairwise.filterMap f ?_ h
  intro t t' hlt u hu u' hu'
  rw [hf t u hu, hf t' u' hu']
  exact hlt

end Spanned

/-- The error with its span moved. -/
def LexError.relocate (f : Span → Span) (e : LexError) : LexError :=
  { e with span := f e.span }

namespace Lexed

open Piece Text.Utf8

/-- Pieces behind others are placed from where these end. -/
theorem place_append (offset : Nat) (ps qs : List Piece) :
    place offset (ps ++ qs)
      = place offset ps ++ place (offset + width (ps.flatMap chars)) qs := by
  induction ps generalizing offset with
  | nil => rfl
  | cons p ps ih =>
    rw [List.flatMap_cons, width_append, ← Nat.add_assoc]
    exact congrArg _ (ih (offset + width p.chars))

/-- Pieces placed further on are moved. -/
theorem place_add (n offset : Nat) (ps : List Piece) :
    place (offset + n) ps = (place offset ps).map (Spanned.relocate (Span.shift n)) := by
  induction ps generalizing offset with
  | nil => rfl
  | cons p ps ih =>
    have hrest : place (offset + n + width p.chars) ps
        = (place (offset + width p.chars) ps).map (Spanned.relocate (Span.shift n)) := by
      rw [← ih, Nat.add_right_comm]
    have hspan : (⟨offset + n, offset + n + width p.chars, Nat.le_add_right _ _⟩ : Span)
        = Span.shift n ⟨offset, offset + width p.chars, Nat.le_add_right _ _⟩ :=
      Span.eq_of_bounds rfl (Nat.add_right_comm _ _ _)
    simp only [place, List.map_cons, hrest, hspan]
    rfl

/-- **A piece starts where the text before it ends.** -/
theorem exists_of_mem_place {offset : Nat} {ps : List Piece} {p : Spanned Piece}
    (h : p ∈ place offset ps) : ∃ before after, ps = before ++ p.value :: after
      ∧ p.span.start = offset + width (before.flatMap chars)
      ∧ p.span.stop = p.span.start + width p.value.chars := by
  induction ps generalizing offset with
  | nil => cases h
  | cons q ps ih =>
    rcases List.mem_cons.1 h with rfl | hmem
    · exact ⟨[], ps, rfl, rfl, rfl⟩
    · obtain ⟨before, after, hps, hstart, hstop⟩ := ih hmem
      refine ⟨q :: before, after, by rw [hps]; rfl, ?_, hstop⟩
      rw [hstart, List.flatMap_cons, width_append, Nat.add_assoc]

/-- **A piece of a source is a text between two others.** -/
theorem exists_middle_of_mem_place {source : String} {p : Spanned Piece}
    (h : p ∈ place 0 (split source.toList)) : ∃ before after,
      source.toList = before ++ p.value.chars ++ after ∧ p.span.start = width before
        ∧ p.span.stop = width before + width p.value.chars := by
  obtain ⟨before, after, hsplit, hstart, hstop⟩ := exists_of_mem_place h
  rw [Nat.zero_add] at hstart
  refine ⟨before.flatMap chars, after.flatMap chars, ?_, hstart, ?_⟩
  · rw [← flatMap_chars_split source.toList, hsplit, List.flatMap_append, List.flatMap_cons,
      List.append_assoc]
  · rw [hstop, hstart]

/-- Each piece has a place. -/
theorem exists_mem_place_of_mem (offset : Nat) {ps : List Piece} {p : Piece} (h : p ∈ ps) :
    ∃ span, ⟨p, span⟩ ∈ place offset ps := by
  rw [← map_value_place offset ps] at h
  obtain ⟨q, hq, rfl⟩ := List.mem_map.1 h
  exact ⟨q.span, hq⟩

theorem le_start_of_mem_place {offset : Nat} {ps : List Piece} {p : Spanned Piece}
    (h : p ∈ place offset ps) : offset ≤ p.span.start := by
  obtain ⟨before, -, -, hstart, -⟩ := exists_of_mem_place h
  omega

theorem stop_le_of_mem_place {offset : Nat} {ps : List Piece} {p : Spanned Piece}
    (h : p ∈ place offset ps) : p.span.stop ≤ offset + width (ps.flatMap chars) := by
  obtain ⟨before, after, rfl, hstart, hstop⟩ := exists_of_mem_place h
  rw [List.flatMap_append, List.flatMap_cons, width_append, width_append]
  omega

/-- No piece of a cut text is empty. -/
theorem chars_ne_nil_of_mem_cut {ps : List Piece} (h : Cut ps) : ∀ p ∈ ps, p.chars ≠ [] := by
  induction ps with
  | nil => simp
  | cons p ps ih => exact List.forall_mem_cons.2 ⟨h.1.precedes.chars_ne_nil, ih h.2⟩

theorem lt_of_mem_place {offset : Nat} {ps : List Piece} (hne : ∀ p ∈ ps, p.chars ≠ [])
    {p : Spanned Piece} (hp : p ∈ place offset ps) : p.span.start < p.span.stop := by
  have hpos := width_pos (hne p.value (value_mem_of_mem_place hp))
  obtain ⟨-, -, -, -, hstop⟩ := exists_of_mem_place hp
  omega

/-- Placed pieces do not overlap. -/
theorem apart_place (offset : Nat) (ps : List Piece) : Spanned.Apart (place offset ps) := by
  induction ps generalizing offset with
  | nil => exact List.Pairwise.nil
  | cons p ps ih =>
    refine List.pairwise_cons.2 ⟨?_, ih (offset + width p.chars)⟩
    intro q hq
    exact le_start_of_mem_place hq

/-- **Every byte of a text belongs to one of its pieces.** -/
theorem exists_mem_place {offset n : Nat} {ps : List Piece} {byte : UInt8}
    (h : (encode (ps.flatMap chars))[n]? = some byte) :
    ∃ p ∈ place offset ps, p.span.start ≤ offset + n ∧ offset + n < p.span.stop
      ∧ byte ∈ encode p.value.chars := by
  induction ps generalizing offset n with
  | nil => cases h
  | cons q ps ih =>
    rw [List.flatMap_cons, encode_append] at h
    by_cases hlt : n < width q.chars
    · rw [List.getElem?_append_left (by rw [length_encode]; exact hlt)] at h
      exact ⟨_, List.mem_cons_self, Nat.le_add_right _ _, Nat.add_lt_add_left hlt offset,
        List.mem_of_getElem? h⟩
    · rw [List.getElem?_append_right (by rw [length_encode]; omega), length_encode] at h
      obtain ⟨p, hp, hstart, hstop, hbyte⟩ := @ih (offset + width q.chars) _ h
      exact ⟨p, List.mem_cons_of_mem _ hp, by omega, by omega, hbyte⟩

/-! ## What is read from pieces at their places -/

/-- Tokens keep the places of their pieces. -/
theorem eq_of_token? {p : Spanned Piece} {t : Spanned Token} (h : token? p = some t) :
    p = ⟨.token t.value, t.span⟩ := by
  obtain ⟨piece, span⟩ := p
  cases piece with
  | token u => cases h; rfl
  | blank text => cases h
  | unreadable text => cases h

/-- So do errors, which quote the characters of their pieces. -/
theorem eq_of_error? {p : Spanned Piece} {e : LexError} (h : error? p = some e) :
    ∃ text, p = ⟨.unreadable text, e.span⟩ ∧ e.found = String.ofList text := by
  obtain ⟨piece, span⟩ := p
  cases piece with
  | unreadable text => cases h; exact ⟨text, rfl, rfl⟩
  | blank text => cases h
  | token u => cases h

/-- What is read, with all spans moved. -/
def relocate (f : Span → Span) (l : Lexed) : Lexed where
  tokens := l.tokens.map (Spanned.relocate f)
  errors := l.errors.map (LexError.relocate f)

theorem ofPlaced_relocate (f : Span → Span) (ps : List (Spanned Piece)) :
    ofPlaced (ps.map (Spanned.relocate f)) = (ofPlaced ps).relocate f := by
  have htoken (p : Spanned Piece) :
      token? (p.relocate f) = (token? p).map (Spanned.relocate f) := by
    obtain ⟨piece, span⟩ := p
    cases piece <;> rfl
  have herror (p : Spanned Piece) :
      error? (p.relocate f) = (error? p).map (LexError.relocate f) := by
    obtain ⟨piece, span⟩ := p
    cases piece <;> rfl
  simp only [ofPlaced, relocate, List.filterMap_map, List.map_filterMap, Function.comp_def, htoken,
    herror]

/-- A text further down is read as the same, further down. -/
theorem readAt_add (n offset : Nat) (cs : List Char) :
    readAt (offset + n) cs = (readAt offset cs).relocate (Span.shift n) := by
  have hread (o : Nat) : readAt o cs = ofPlaced (place o (split cs)) := rfl
  rw [hread, hread, place_add, ofPlaced_relocate]

end Lexed

end Daybook
