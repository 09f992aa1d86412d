import Daybook.Proofs.Syntax.Cutting

/-!
The pieces of a text.

`Cut ps` looks at every piece and at the text behind it: white space ends before something else, a token
ends where nothing goes on with it, and an unreadable run ends at the first place where something can
begin. How the pieces were found plays no part. The pieces of a text are cut in this way (`cut_split`),
and pieces that are cut in this way are those of their text (`split_of_cut`), so that what becomes of the
pieces when a text is changed is a question about one piece and what stands behind it.
-/

namespace Daybook.Numeral

/-- Digits are taken up to where there are no more. -/
theorem noDigit_span (cs : List Char) : NoDigit (span cs).2 := by
  induction cs with
  | nil => trivial
  | cons c cs ih =>
    simp only [span]
    split
    · exact ih
    · next hnone => exact hnone

end Daybook.Numeral

namespace Daybook.Token

open Text

/-! ## Where a token that was taken ends -/

theorem halts_dropWhile (p : Char → Bool) (cs : List Char) : Halts p (cs.dropWhile p) := by
  match hdrop : cs.dropWhile p with
  | [] => trivial
  | c :: rest =>
    have hhead := List.head?_dropWhile_not p cs
    rw [hdrop] at hhead
    exact hhead

/-- A run that is shorter than what was looked at ends with the class. -/
theorem halts_drop_run {p : Char → Bool} {n : Nat} {cs : List Char}
    (h : ((cs.take n).takeWhile p).length < n) :
    Halts p (cs.drop ((cs.take n).takeWhile p).length) := by
  induction cs generalizing n with
  | nil => rw [List.drop_nil]; trivial
  | cons c cs ih =>
    cases n with
    | zero => omega
    | succ n =>
      rw [List.take_succ_cons] at h ⊢
      by_cases hc : p c = true
      · rw [List.takeWhile_cons_of_pos hc, List.length_cons] at h ⊢
        exact ih (by omega)
      · rw [List.takeWhile_cons_of_neg hc]
        exact Bool.eq_false_iff.2 hc

/-- A number is taken as far as it goes. -/
theorem endsBefore_of_takeUnsigned? {cs rest : List Char} {d : Decimal}
    (h : Decimal.takeUnsigned? cs = some (d, rest)) : EndsBefore (.number d) rest := by
  unfold Decimal.takeUnsigned? at h
  split at h
  · cases h
  · cases h
    have hwhole := Numeral.noDigit_span cs
    unfold EndsBefore
    generalize (Numeral.span cs).2 = behind at hwhole
    dsimp only
    unfold Decimal.spanPlaces
    split
    · next cs =>
      split
      · next hempty =>
        -- The point stays where it is, because no digit follows it.
        refine ⟨hwhole, ?_⟩
        rintro - _ ⟨⟩
        have hspan := Numeral.toChars_span cs
        rw [List.isEmpty_iff.1 hempty] at hspan
        rw [← hspan]
        exact Numeral.noDigit_span cs
      · next hne =>
        refine ⟨Numeral.noDigit_span cs, ?_⟩
        intro hnil
        rw [hnil] at hne
        exact absurd rfl hne
    · next hpoint =>
      refine ⟨hwhole, ?_⟩
      rintro - cs rfl
      exact absurd rfl (hpoint cs)

/-- **A token takes as much as it can.** -/
theorem endsBefore_of_take? {cs rest : List Char} {t : Token} (h : take? cs = some (t, rest)) :
    t.EndsBefore rest := by
  unfold take? at h
  split at h
  · cases h
  · cases h
    exact halts_dropWhile _ _
  next c cs _ =>
  -- The rules in their order. A mark is taken as it is, and all others take a run up to its end.
  split at h
  · simp only [takeCurrency?] at h
    split at h
    · next hlen =>
      cases h
      exact halts_drop_run (by omega)
    · cases h
  split at h
  · cases h; trivial
  split at h
  · simp only [takeString?] at h
    split at h
    · cases h; trivial
    · cases h
  split at h
  · cases h; trivial
  split at h
  · simp only [Option.map_eq_some_iff, Prod.mk.injEq, Prod.exists] at h
    obtain ⟨d, _, hd, rfl, rfl⟩ := h
    exact endsBefore_of_takeUnsigned? hd
  split at h
  · cases h
    exact halts_dropWhile _ _
  · cases h

/-! ## Where no token is taken -/

/-- No string is taken if there is no further quote. -/
theorem takeString?_eq_none_iff {cs : List Char} : takeString? cs = none ↔ '"' ∉ cs := by
  rw [takeString?]
  split
  · next c rest hdrop =>
    have hmem : '"' ∈ cs := by
      -- Without a quote, the search for one would run through the whole text.
      by_contra hnot
      have hall : ∀ d ∈ cs, (d ≠ '"' : Bool) = true := by
        intro d hd
        rw [decide_eq_true_eq]
        rintro rfl
        exact hnot hd
      have happend : (cs ++ []).dropWhile (· ≠ '"') = [].dropWhile (· ≠ '"') :=
        List.dropWhile_append_of_pos hall
      rw [List.append_nil, hdrop] at happend
      cases happend
    simp only [reduceCtorEq, hmem, not_true_eq_false]
  · next hdrop =>
    have happend := List.takeWhile_append_dropWhile (p := (· ≠ '"')) (l := cs)
    rw [hdrop, List.append_nil] at happend
    have hnot : '"' ∉ cs := by
      rw [← happend]
      exact not_mem_takeWhile_ne
    simp only [hnot, not_false_eq_true]

theorem takeUnsigned?_ne_none {c : Char} (h : c.isDigit = true) (cs : List Char) :
    Decimal.takeUnsigned? (c :: cs) ≠ none := by
  rw [isDigit_iff] at h
  have hdigit : (Numeral.span (c :: cs)).1 ≠ [] := by
    simp only [Numeral.span, Digit.ofChar?]
    rw [dif_pos (by omega)]
    exact List.cons_ne_nil _ _
  rw [Decimal.takeUnsigned?, dif_neg hdigit]
  exact Option.some_ne_none _

/-- **Where no token begins, none begins with another text behind the character**, unless that text makes
a comment, a currency or a string of it. -/
theorem take?_eq_none_of {c : Char} {cs ds : List Char} (h : take? (c :: cs) = none)
    (hslash : c = '/' → ds.head? = some '/' → cs.head? = some '/')
    (hcurrency : c.isUpper = true → takeCurrency? (c :: cs) = none →
      takeCurrency? (c :: ds) = none)
    (hquote : c = '"' → '"' ∉ cs → '"' ∉ ds) : take? (c :: ds) = none := by
  have hcomment (rest : List Char) (hc : c = '/') : cs ≠ '/' :: rest := by
    rintro rfl
    rw [hc] at h
    cases h
  have hcomment' (rest : List Char) (hc : c = '/') : ds ≠ '/' :: rest := by
    rintro rfl
    obtain ⟨rest, rfl⟩ := List.head?_eq_some_iff.1 (hslash hc rfl)
    exact hcomment rest hc rfl
  -- The rule is found by the character alone, so it is the same one for both texts.
  rw [take?] at h ⊢
  · split at h
    · next hupper => rw [if_pos hupper]; exact hcurrency hupper h
    next hupper =>
    rw [if_neg hupper]
    split at h
    · cases h
    next hmovement =>
    rw [if_neg hmovement]
    split at h
    · next hc =>
      rw [if_pos hc]
      exact takeString?_eq_none_iff.2 (hquote hc (takeString?_eq_none_iff.1 h))
    next hc =>
    rw [if_neg hc]
    split at h
    · cases h
    next hseparator =>
    rw [if_neg hseparator]
    split at h
    · next hdigit => exact absurd (Option.map_eq_none_iff.1 h) (takeUnsigned?_ne_none hdigit cs)
    next hdigit =>
    rw [if_neg hdigit]
    split at h
    · cases h
    next hlower => rw [if_neg hlower]
  · exact fun rest hc => hcomment' rest hc
  · exact fun rest hc => hcomment rest hc

end Daybook.Token

namespace Daybook.Piece

open Text

/-! ## Pieces with what stands behind them -/

/-- Whether something can begin behind the text, or nothing stands there, and nothing can begin at any
of its characters. -/
def Barren : List Char → List Char → Prop
  | [], rest => rest = [] ∨ canBegin rest = true
  | c :: text, rest => canBegin (c :: (text ++ rest)) = false ∧ Barren text rest

/-- Whether the piece ends where the text behind it begins. -/
def EndsBefore : Piece → List Char → Prop
  | .blank text, rest => text ≠ [] ∧ (∀ c ∈ text, isBlank c = true) ∧ Halts isBlank rest
  | .token t, rest => t.WellFormed ∧ t.EndsBefore rest
  | .unreadable text, rest => text ≠ [] ∧ Barren text rest

/-- Whether every piece ends where those behind it begin. -/
def Cut : List Piece → Prop
  | [] => True
  | p :: ps => p.EndsBefore (ps.flatMap chars) ∧ Cut ps

theorem Cut.of_append_right {ps qs : List Piece} (h : Cut (ps ++ qs)) : Cut qs := by
  induction ps with
  | nil => exact h
  | cons p ps ih => exact ih h.2

/-- Nothing begins with a character that is neither a blank nor the beginning of a token. -/
theorem canBegin_cons {c : Char} {cs : List Char} :
    canBegin (c :: cs) = false ↔ isBlank c = false ∧ Token.take? (c :: cs) = none := by
  simp [canBegin]

/-- Nothing begins inside of a barren run. -/
theorem Barren.canBegin_drop {text rest : List Char} (h : Barren text rest) {n : Nat}
    (hn : n < text.length) : canBegin (text.drop n ++ rest) = false := by
  induction text generalizing n with
  | nil => cases hn
  | cons c text ih =>
    cases n with
    | zero => exact h.1
    | succ n => exact ih h.2 (Nat.lt_of_succ_lt_succ hn)

/-- What is skipped is barren, up to where something can begin. -/
theorem barren_skip (cs : List Char) : Barren (skip cs).1 (skip cs).2 := by
  induction cs with
  | nil => exact .inl rfl
  | cons c cs ih =>
    unfold skip
    split
    · next hbegin => exact .inr hbegin
    · next hbegin =>
      refine ⟨?_, ih⟩
      rw [skip_append]
      exact Bool.eq_false_iff.2 hbegin

/-- A barren run is skipped as a whole. -/
theorem skip_of_barren {text rest : List Char} (h : Barren text rest) :
    skip (text ++ rest) = (text, rest) := by
  induction text with
  | nil =>
    rcases h with rfl | hbegin
    · rfl
    · cases rest with
      | nil => rfl
      | cons c rest => exact if_pos hbegin
  | cons c text ih =>
    rw [List.cons_append, skip, if_neg (Bool.eq_false_iff.1 h.1), ih h.2]

/-- **The pieces of a text are cut.** -/
theorem cut_split (cs : List Char) : Cut (split cs) := by
  fun_induction split cs with
  | case1 => trivial
  | case2 c cs hblank ih =>
    refine ⟨⟨List.cons_ne_nil _ _, ?_, ?_⟩, ih⟩
    · have hall := List.all_eq_true.1 (List.all_takeWhile (p := isBlank) (l := cs))
      exact List.forall_mem_cons.2 ⟨hblank, hall⟩
    · rw [flatMap_chars_split]
      exact Token.halts_dropWhile isBlank cs
  | case3 c cs _ t rest htake ih =>
    refine ⟨?_, ih⟩
    rw [flatMap_chars_split]
    exact ⟨Token.wellFormed_of_take? htake, Token.endsBefore_of_take? htake⟩
  | case4 c cs hblank hnone ih =>
    refine ⟨⟨List.cons_ne_nil _ _, ?_, ?_⟩, ih⟩
    · rw [flatMap_chars_split, skip_append]
      exact canBegin_cons.2 ⟨Bool.eq_false_iff.2 hblank, hnone⟩
    · rw [flatMap_chars_split]
      exact barren_skip cs

/-- A piece that ends where more text begins is split off. -/
theorem split_of_endsBefore {p : Piece} {rest : List Char} (h : p.EndsBefore rest) :
    split (p.chars ++ rest) = p :: split rest := by
  cases p with
  | blank text =>
    obtain ⟨hne, hblank, hrest⟩ := h
    obtain ⟨c, text, rfl⟩ := List.exists_cons_of_ne_nil hne
    obtain ⟨hc, hall⟩ := List.forall_mem_cons.1 hblank
    rw [chars, List.cons_append, split, if_pos hc, takeWhile_append_halts hall hrest,
      dropWhile_append_halts hall hrest]
  | token t => exact split_of_take? (Token.take?_chars_append h.1 h.2)
  | unreadable text =>
    obtain ⟨hne, hbarren⟩ := h
    obtain ⟨c, text, rfl⟩ := List.exists_cons_of_ne_nil hne
    obtain ⟨hblank, hnone⟩ := canBegin_cons.1 hbarren.1
    rw [chars, List.cons_append, split, if_neg (Bool.eq_false_iff.1 hblank)]
    split
    · next h' => rw [hnone] at h'; cases h'
    · rw [skip_of_barren hbarren.2]

/-- **There is one way to cut a text.** -/
theorem split_of_cut {ps : List Piece} (h : Cut ps) : split (ps.flatMap chars) = ps := by
  induction ps with
  | nil => rw [List.flatMap_nil, split]
  | cons p ps ih => rw [List.flatMap_cons, split_of_endsBefore h.1, ih h.2]

end Daybook.Piece
