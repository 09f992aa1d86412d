import Mathlib.Data.List.Basic
import Daybook.Proofs.Syntax.Pieces

/-!
Texts that are put together or cut off.

The rules look ahead: a string goes on to the next quote, a run of capitals is a currency or none depending
on its length, and an unreadable run goes on to the next place where something can begin. So pieces may
change when the text behind them does. They do not when it is replaced by a text that is empty or begins a
line, provided that the capitals in front of it make no currency and that it closes no quote
(`Leads.replace`). In particular a text may be cut off between two pieces where no run of capitals is torn
(`Cut.of_append_left`), and a line feed and another text may follow where no unreadable run has a quote
that could be closed (`readAt_append_newline`).
-/

namespace Daybook.Text

theorem Halts.of_append_left {p : Char → Bool} {rest behind : List Char}
    (h : Halts p (rest ++ behind)) : Halts p rest := by
  cases rest with
  | nil => trivial
  | cons c rest => exact h

theorem Halts.append {p : Char → Bool} {rest behind : List Char} (h : Halts p rest)
    (hbehind : Halts p behind) : Halts p (rest ++ behind) := by
  cases rest with
  | nil => exact hbehind
  | cons c rest => exact h

/-- Whether no run of capitals goes on across the place where two texts meet. -/
def Seam (text behind : List Char) : Prop :=
  Halts Char.isUpper behind ∨ ∃ c, text.getLast? = some c ∧ c.isUpper = false

/-- There is a seam behind what has no capitals. -/
theorem Seam.of_forall {text behind : List Char} (hne : text ≠ [])
    (h : ∀ c ∈ text, c.isUpper = false) (before : List Char) : Seam (before ++ text) behind := by
  right
  refine ⟨text.getLast hne, ?_, h _ (List.getLast_mem hne)⟩
  rw [List.getLast?_append_of_ne_nil before hne, List.getLast?_eq_some_getLast hne]

/-- How many capitals a text ends with. -/
def finalCapitals (text : List Char) : Nat :=
  (text.reverse.takeWhile Char.isUpper).length

/-- Whether the capitals in front of the place where two texts meet are no currency by themselves, unless
they are one anyway. -/
def Separable (text behind : List Char) : Prop :=
  Halts Char.isUpper behind ∨ finalCapitals text < 3

/-- Whether a text is empty or begins a line. -/
def StartsLine : List Char → Prop
  | [] => True
  | c :: _ => c = '\n'

/-- What begins a line does not begin with a capital. -/
theorem StartsLine.halts_isUpper {text : List Char} (h : StartsLine text) :
    Halts Char.isUpper text := by
  cases text with
  | nil => trivial
  | cons c text =>
    obtain rfl : c = '\n' := h
    exact (by decide : Char.isUpper '\n' = false)

/-- There are no capitals at the end if the last character is none. -/
theorem finalCapitals_eq_zero {text : List Char} {c : Char} (hlast : text.getLast? = some c)
    (hc : c.isUpper = false) : finalCapitals text = 0 := by
  rw [← List.head?_reverse, List.head?_eq_some_iff] at hlast
  obtain ⟨rest, hreverse⟩ := hlast
  rw [finalCapitals, hreverse, List.takeWhile_cons_of_neg (Bool.eq_false_iff.1 hc), List.length_nil]

/-- Capitals behind a text add to those at its end. -/
theorem finalCapitals_of_all {text : List Char} (h : ∀ c ∈ text, c.isUpper = true)
    (before : List Char) :
    finalCapitals (before ++ text) = finalCapitals before + text.length := by
  have hall : ∀ c ∈ text.reverse, c.isUpper = true := fun c hc => h c (List.mem_reverse.1 hc)
  rw [finalCapitals, List.reverse_append, List.takeWhile_append_of_pos hall, List.length_append,
    List.length_reverse, Nat.add_comm, finalCapitals]

/-- What is not all capitals alone decides how many stand at the end. -/
theorem finalCapitals_of_not_all {text : List Char} (h : ∃ c ∈ text, c.isUpper = false)
    (before : List Char) : finalCapitals (before ++ text) = finalCapitals text := by
  have hshort : (text.reverse.takeWhile Char.isUpper).length ≠ text.reverse.length := by
    intro hlength
    obtain ⟨c, hc, hlower⟩ := h
    have hrun := List.takeWhile_prefix (l := text.reverse) Char.isUpper
    have hall := List.all_eq_true.1 (List.all_takeWhile (l := text.reverse) (p := Char.isUpper))
    rw [hrun.eq_of_length hlength] at hall
    rw [hall c (List.mem_reverse.2 hc)] at hlower
    cases hlower
  rw [finalCapitals, finalCapitals, List.reverse_append, List.takeWhile_append, if_neg hshort]

/-- A text consists of capitals, or it has something else in it. -/
theorem forall_isUpper_or_exists (text : List Char) :
    (∀ c ∈ text, c.isUpper = true) ∨ ∃ c ∈ text, c.isUpper = false := by
  by_cases hother : ∃ c ∈ text, c.isUpper = false
  · exact .inr hother
  · left
    intro c hc
    by_contra hupper
    exact hother ⟨c, hc, Bool.eq_false_iff.2 hupper⟩

/-- More text in front can only add to the capitals at the end. -/
theorem finalCapitals_le_append (before text : List Char) :
    finalCapitals text ≤ finalCapitals (before ++ text) := by
  rw [finalCapitals, finalCapitals, List.reverse_append, List.takeWhile_append]
  split
  · rw [List.length_append]
    exact le_of_eq_of_le ‹_› (Nat.le_add_right _ _)
  · exact Nat.le_refl _

/-- Whether a text can be separated from what follows is decided at its end. -/
theorem Separable.of_append_right (before : List Char) {text behind : List Char}
    (h : Separable (before ++ text) behind) : Separable text behind := by
  rcases h with hbehind | hfew
  · exact .inl hbehind
  · exact .inr (Nat.lt_of_le_of_lt (finalCapitals_le_append before text) hfew)

/-- Where there is a seam, texts can be separated. -/
theorem Seam.separable {text behind : List Char} (h : Seam text behind) :
    Separable text behind := by
  rcases h with hbehind | ⟨c, hlast, hc⟩
  · exact .inl hbehind
  · exact .inr (by rw [finalCapitals_eq_zero hlast hc]; decide)

/-- A run of capitals does not depend on what stands behind the text, if that begins with none or the text
has something else in it. -/
theorem run_append {text behind : List Char}
    (h : Halts Char.isUpper behind ∨ ∃ c ∈ text, c.isUpper = false) (n : Nat) :
    ((text ++ behind).take n).takeWhile Char.isUpper = (text.take n).takeWhile Char.isUpper := by
  induction text generalizing n with
  | nil =>
    rcases h with hbehind | ⟨c, hc, -⟩
    · have hnil : ([] ++ behind.take n).takeWhile Char.isUpper = [] :=
        takeWhile_append_halts (by simp) (hbehind.take n)
      rw [List.nil_append] at hnil ⊢
      rw [hnil, List.take_nil, List.takeWhile_nil]
    · cases hc
  | cons c text ih =>
    cases n with
    | zero => rfl
    | succ n =>
      rw [List.cons_append, List.take_succ_cons, List.take_succ_cons]
      by_cases hc : c.isUpper = true
      · have hmore : Halts Char.isUpper behind ∨ ∃ d ∈ text, d.isUpper = false := by
          rcases h with hbehind | ⟨d, hd, hother⟩
          · exact .inl hbehind
          · rcases List.mem_cons.1 hd with rfl | hmem
            · rw [hc] at hother
              cases hother
            · exact .inr ⟨d, hmem, hother⟩
        rw [List.takeWhile_cons_of_pos hc, List.takeWhile_cons_of_pos hc, ih hmore]
      · rw [List.takeWhile_cons_of_neg hc, List.takeWhile_cons_of_neg hc]

end Daybook.Text

namespace Daybook.Numeral

theorem NoDigit.of_append_left {rest behind : List Char} (h : NoDigit (rest ++ behind)) :
    NoDigit rest := by
  cases rest with
  | nil => trivial
  | cons c rest => exact h

theorem NoDigit.append {rest behind : List Char} (h : NoDigit rest) (hbehind : NoDigit behind) :
    NoDigit (rest ++ behind) := by
  cases rest with
  | nil => exact hbehind
  | cons c rest => exact h

end Daybook.Numeral

namespace Daybook.Token

open Text

/-- Less text behind a token does not go on with it either. -/
theorem EndsBefore.of_append_left {t : Token} {rest behind : List Char}
    (h : t.EndsBefore (rest ++ behind)) : t.EndsBefore rest := by
  cases t with
  | identifier name => exact Halts.of_append_left h
  | number literal =>
    obtain ⟨hdigit, hpoint⟩ := h
    refine ⟨hdigit.of_append_left, ?_⟩
    rintro hplaces cs rfl
    exact (hpoint hplaces (cs ++ behind) rfl).of_append_left
  | currency code => exact Halts.of_append_left h
  | comment content => exact Halts.of_append_left h
  | _ => trivial

/-- No token goes on past a line feed, wherever it stands. -/
theorem EndsBefore.append_newline {t : Token} {rest : List Char} (h : t.EndsBefore rest)
    (behind : List Char) : t.EndsBefore (rest ++ '\n' :: behind) := by
  have hdigit : Numeral.NoDigit ('\n' :: behind) := (by decide : Digit.ofChar? '\n' = none)
  cases t with
  | identifier name => exact Halts.append h (by decide : isIdentifierChar '\n' = false)
  | number literal =>
    obtain ⟨hrest, hpoint⟩ := h
    refine ⟨hrest.append hdigit, ?_⟩
    intro hplaces cs happend
    cases rest with
    | nil => cases happend
    | cons c rest =>
      obtain ⟨rfl, rfl⟩ := List.cons.inj happend
      exact (hpoint hplaces rest rfl).append hdigit
  | currency code => exact Halts.append h (by decide : Char.isUpper '\n' = false)
  | comment content => exact Halts.append h (by simp [Halts])
  | _ => trivial

/-- Whether a code is taken depends on the first six characters only. -/
theorem takeCurrency?_eq_none_of_run {cs ds : List Char}
    (hrun : (cs.take 6).takeWhile Char.isUpper = (ds.take 6).takeWhile Char.isUpper)
    (h : takeCurrency? cs = none) : takeCurrency? ds = none := by
  simp only [takeCurrency?] at h ⊢
  rw [← hrun]
  split at h
  · cases h
  · next hlen => rw [if_neg hlen]

/-- A text that begins a line goes on with no token, wherever it stands. -/
theorem EndsBefore.replace {t : Token} {rest behind behind' : List Char}
    (h : t.EndsBefore (rest ++ behind)) (hline : StartsLine behind') :
    t.EndsBefore (rest ++ behind') := by
  cases behind' with
  | nil =>
    rw [List.append_nil]
    exact h.of_append_left
  | cons c behind' =>
    obtain rfl : c = '\n' := hline
    exact h.of_append_left.append_newline behind'

/-- If no code is taken from two parts that can be separated, none is taken from the first. -/
theorem takeCurrency?_eq_none_of_separable {text behind : List Char} (hseam : Separable text behind)
    (h : takeCurrency? (text ++ behind) = none) : takeCurrency? text = none := by
  rcases hseam with hbehind | hfew
  · exact takeCurrency?_eq_none_of_run (run_append (.inl hbehind) 6) h
  rcases forall_isUpper_or_exists text with hall | hother
  -- All of the text are capitals, and they are too few.
  · have hlength : finalCapitals text = 0 + text.length := finalCapitals_of_all hall []
    have hrun := ((List.takeWhile_prefix Char.isUpper).trans (List.take_prefix 6 text)).length_le
    simp only [takeCurrency?]
    rw [if_neg (by omega)]
  · exact takeCurrency?_eq_none_of_run (run_append (.inr hother) 6) h

/-- **Where no token begins, none begins with another text behind**, which begins a line and closes no
quote. -/
theorem take?_eq_none_replace {c : Char} {cs behind behind' : List Char}
    (hline : StartsLine behind') (hseam : Separable (c :: cs) behind)
    (hquote : c = '"' → '"' ∉ behind → '"' ∉ behind')
    (hnone : take? (c :: (cs ++ behind)) = none) : take? (c :: (cs ++ behind')) = none := by
  refine take?_eq_none_of hnone ?_ ?_ ?_
  · intro _ hhead
    cases cs with
    | cons d cs => exact hhead
    | nil =>
      obtain ⟨rest, rfl⟩ := List.head?_eq_some_iff.1 hhead
      cases hline
  · intro _ hcurrency
    have hcut : takeCurrency? (c :: cs) = none := takeCurrency?_eq_none_of_separable hseam hcurrency
    exact takeCurrency?_eq_none_of_run (run_append (.inl hline.halts_isUpper) 6).symm hcut
  · intro hc hnot hmem
    rcases List.mem_append.1 hmem with hcs | hbehind
    · exact hnot (List.mem_append_left behind hcs)
    · exact hquote hc (fun hmem' => hnot (List.mem_append_right cs hmem')) hbehind

theorem not_isUpper_of_mem_toChars {d : Decimal} (h : d.negative = false) :
    ∀ c ∈ d.toChars, c.isUpper = false := by
  intro c hc
  have hdigits : ∀ n : Numeral, ∀ c ∈ n.toChars, c.isUpper = false := by
    intro n c hc
    obtain ⟨digit, -, rfl⟩ := List.mem_map.1 hc
    exact (toChar_kinds digit).1
  rw [Decimal.toChars, h, if_neg Bool.false_ne_true, List.nil_append] at hc
  rcases List.mem_append.1 hc with hwhole | hplaces
  · exact hdigits d.whole c hwhole
  · rw [Decimal.placesText] at hplaces
    split at hplaces
    · cases hplaces
    · rcases List.mem_cons.1 hplaces with rfl | hmem
      · decide
      · exact hdigits d.places c hmem

/-- **No run of capitals goes on across the end of a token.** -/
theorem seam_of_endsBefore {t : Token} {rest : List Char} (hwf : t.WellFormed)
    (hends : t.EndsBefore rest) (before : List Char) : Seam (before ++ t.chars) rest := by
  have hne : t.chars ≠ [] := (take?_eq_some (take?_chars_append hwf hends)).2
  cases t with
  | currency code => exact .inl hends
  | comment content =>
    left
    cases rest with
    | nil => trivial
    | cons c rest =>
      have hline : decide (c ≠ '\n') = false := hends
      obtain rfl : c = '\n' := by simpa using hline
      exact (by decide : Char.isUpper '\n' = false)
  | identifier name =>
    refine Seam.of_forall hne ?_ before
    intro c hc
    exact not_isUpper_of_isIdentifierChar (isIdentifierChar_of_mem hwf c hc)
  | number literal => exact Seam.of_forall hne (not_isUpper_of_mem_toChars hwf) before
  | movement symbol =>
    refine Seam.of_forall hne ?_ before
    rcases hwf with rfl | rfl
    · exact List.forall_mem_singleton.2 (by decide)
    · exact List.forall_mem_singleton.2 (by decide)
  | separator symbol =>
    refine Seam.of_forall hne ?_ before
    rcases hwf with rfl | rfl
    · exact List.forall_mem_singleton.2 (by decide)
    · exact List.forall_mem_singleton.2 (by decide)
  | string content =>
    right
    refine ⟨'"', ?_, by decide⟩
    rw [chars, ← List.append_assoc, List.getLast?_concat]

end Daybook.Token

namespace Daybook.Piece

open Text

/-! ## What a text begins with -/

/-- Whether the piece is an unreadable run. -/
def isUnreadable : Piece → Bool
  | .unreadable _ => true
  | _ => false

/-- White space can begin anywhere. -/
theorem canBegin_of_isBlank {c : Char} (h : isBlank c = true) (cs : List Char) :
    canBegin (c :: cs) = true := by
  rw [canBegin, h]
  rfl

/-- So can a token that ends where its rest begins. -/
theorem canBegin_of_token {t : Token} {rest : List Char} (h : t.WellFormed)
    (hrest : t.EndsBefore rest) : canBegin (t.chars ++ rest) = true := by
  have htake := Token.take?_chars_append h hrest
  cases htext : t.chars ++ rest with
  | nil => rw [htext] at htake; cases htake
  | cons c cs =>
    rw [htext] at htake
    rw [canBegin, htake, Option.isSome_some, Bool.or_true]

/-- Nothing else can begin. -/
theorem blank_or_token_of_canBegin {text : List Char} (h : canBegin text = true) :
    (∃ c cs, text = c :: cs ∧ isBlank c = true)
      ∨ ∃ (t : Token) (rest : List Char),
        text = t.chars ++ rest ∧ t.WellFormed ∧ t.EndsBefore rest := by
  cases text with
  | nil => cases h
  | cons c cs =>
    rcases Bool.or_eq_true_iff.1 h with hblank | htake
    · exact .inl ⟨c, cs, rfl, hblank⟩
    · obtain ⟨⟨t, rest⟩, htake⟩ := Option.isSome_iff_exists.1 htake
      exact .inr ⟨t, rest, (Token.take?_eq_some htake).1.symm, Token.wellFormed_of_take? htake,
        Token.endsBefore_of_take? htake⟩

/-- Whether the piece is read as such in front of the text, where white space may go on. -/
def Precedes : Piece → List Char → Prop
  | .blank text, _ => text ≠ [] ∧ ∀ c ∈ text, isBlank c = true
  | .token t, rest => t.WellFormed ∧ t.EndsBefore rest
  | .unreadable text, rest => text ≠ [] ∧ Barren text rest

/-- Whether every piece is read as such in front of those behind it and of the text behind all of them. -/
def Leads : List Piece → List Char → Prop
  | [], _ => True
  | p :: ps, behind => p.Precedes (ps.flatMap chars ++ behind) ∧ Leads ps behind

/-- A piece that ends before a text precedes it. -/
theorem EndsBefore.precedes {p : Piece} {rest : List Char} (h : p.EndsBefore rest) :
    p.Precedes rest := by
  cases p with
  | blank text => exact ⟨h.1, h.2.1⟩
  | token t => exact h
  | unreadable text => exact h

/-- The pieces of a cut text lead to those behind them. -/
theorem Cut.leads {ps qs : List Piece} (h : Cut (ps ++ qs)) : Leads ps (qs.flatMap chars) := by
  induction ps with
  | nil => trivial
  | cons p ps ih =>
    refine ⟨?_, ih h.2⟩
    rw [← List.flatMap_append]
    exact h.1.precedes

/-- Pieces lead to a text if the first ones lead to the others, and these to the text. -/
theorem leads_append {ps qs : List Piece} {behind : List Char} :
    Leads (ps ++ qs) behind ↔ Leads ps (qs.flatMap chars ++ behind) ∧ Leads qs behind := by
  induction ps with
  | nil => exact (and_iff_right trivial).symm
  | cons p ps ih =>
    rw [List.cons_append, Leads, Leads, ih, and_assoc, List.flatMap_append, List.append_assoc]

/-- Something begins where a piece does, unless the piece is an unreadable run. -/
theorem canBegin_of_precedes {p : Piece} {rest : List Char} (h : p.Precedes rest) :
    canBegin (p.chars ++ rest) = !p.isUnreadable := by
  cases p with
  | blank text =>
    obtain ⟨hne, hblank⟩ := h
    obtain ⟨c, text, rfl⟩ := List.exists_cons_of_ne_nil hne
    exact canBegin_of_isBlank (hblank c List.mem_cons_self) _
  | token t => exact canBegin_of_token h.1 h.2
  | unreadable text =>
    obtain ⟨hne, hbarren⟩ := h
    obtain ⟨c, text, rfl⟩ := List.exists_cons_of_ne_nil hne
    exact hbarren.1

theorem Precedes.chars_ne_nil {p : Piece} {rest : List Char} (h : p.Precedes rest) :
    p.chars ≠ [] := by
  cases p with
  | blank text => exact h.1
  | token t => exact (Token.take?_eq_some (Token.take?_chars_append h.1 h.2)).2
  | unreadable text => exact h.1

/-- A line can begin anywhere. -/
theorem canBegin_of_startsLine {text : List Char} (h : StartsLine text) :
    text = [] ∨ canBegin text = true := by
  cases text with
  | nil => exact .inl rfl
  | cons c text =>
    obtain rfl : c = '\n' := h
    exact .inr rfl

/-! ## Capitals in front of a place -/

/-- Behind a text in which nothing begins, something does, or nothing stands there. -/
theorem Barren.eq_nil_or_canBegin {text rest : List Char} (h : Barren text rest) :
    rest = [] ∨ canBegin rest = true := by
  induction text with
  | nil => exact h
  | cons c text ih => exact ih h.2

/-- No run of capitals goes on across the end of a piece, except behind an unreadable run, where something
begins. -/
theorem Precedes.seam {p : Piece} {rest : List Char} (h : p.Precedes rest)
    (hunreadable : p.isUnreadable = true → canBegin rest = false) (before : List Char) :
    Seam (before ++ p.chars) rest := by
  cases p with
  | token t => exact Token.seam_of_endsBefore h.1 h.2 before
  | blank text =>
    refine Seam.of_forall h.1 ?_ before
    intro c hc
    have hnat := toNat_of_isBlank (h.2 c hc)
    rw [Bool.eq_false_iff, Ne, Token.isUpper_iff]
    omega
  | unreadable text =>
    rcases h.2.eq_nil_or_canBegin with rfl | hbegin
    · exact .inl trivial
    · rw [hunreadable rfl] at hbegin
      cases hbegin

/-- Pieces that lead to a text are not empty. -/
theorem Leads.chars_ne_nil {ps : List Piece} {behind : List Char} (h : Leads ps behind) :
    ∀ p ∈ ps, p.chars ≠ [] := by
  induction ps with
  | nil => simp
  | cons p ps ih => exact List.forall_mem_cons.2 ⟨h.1.chars_ne_nil, ih h.2⟩

/-- There is a seam behind pieces that lead to a text, if nothing unreadable goes on in it. -/
theorem Leads.seam {ps : List Piece} {p : Piece} {rest : List Char} (h : Leads (ps ++ [p]) rest)
    (hunreadable : p.isUnreadable = true → canBegin rest = false) :
    Seam ((ps ++ [p]).flatMap chars) rest := by
  obtain ⟨-, hp, -⟩ := leads_append.1 h
  rw [List.flatMap_nil, List.nil_append] at hp
  rw [List.flatMap_append, List.flatMap_singleton]
  exact hp.seam hunreadable _

/-- In front of capitals with which nothing begins, there are no capitals. -/
theorem Leads.finalCapitals_eq_zero {ps : List Piece} {c : Char} {rest : List Char}
    (h : Leads ps (c :: rest)) (hc : c.isUpper = true) (hbarren : canBegin (c :: rest) = false) :
    finalCapitals (ps.flatMap chars) = 0 := by
  rcases List.eq_nil_or_concat ps with rfl | ⟨init, p, rfl⟩
  · rfl
  rw [List.concat_eq_append] at h ⊢
  rcases h.seam fun _ => hbarren with hhalts | ⟨d, hlast, hd⟩
  · have hupper : c.isUpper = false := hhalts
    rw [hc] at hupper
    cases hupper
  · exact Text.finalCapitals_eq_zero hlast hd

/-- **The capitals in front of a place** make no currency, unless an unreadable run ends with them. -/
theorem Leads.separable {ps : List Piece} {behind : List Char} (h : Leads ps behind)
    (hfew : ∀ text, ps.getLast? = some (.unreadable text) → finalCapitals text < 3) :
    Separable (ps.flatMap chars) behind := by
  rcases List.eq_nil_or_concat ps with rfl | ⟨init, p, rfl⟩
  · exact .inr (by decide)
  rw [List.concat_eq_append] at h hfew ⊢
  cases p with
  | blank text => exact (h.seam (by simp [isUnreadable])).separable
  | token t => exact (h.seam (by simp [isUnreadable])).separable
  | unreadable text =>
    have hlast := hfew text List.getLast?_concat
    obtain ⟨hinit, hp, -⟩ := leads_append.1 h
    rw [List.flatMap_nil, List.nil_append] at hp
    rw [List.flatMap_singleton, chars] at hinit
    rw [List.flatMap_append, List.flatMap_singleton, chars]
    right
    rcases forall_isUpper_or_exists text with hall | hother
    -- The run consists of capitals, and there are none in front of it.
    · have hbarren := canBegin_of_precedes hp
      have hlength : finalCapitals text = 0 + text.length := finalCapitals_of_all hall []
      obtain ⟨c, text, rfl⟩ := List.exists_cons_of_ne_nil hp.1
      have hzero := hinit.finalCapitals_eq_zero (hall c List.mem_cons_self) hbarren
      rw [finalCapitals_of_all hall, hzero, ← hlength]
      exact hlast
    · rw [finalCapitals_of_not_all hother]
      exact hlast

/-! ## Another text behind -/

/-- A run stays barren if another line stands behind it, under conditions on capitals and on quotes. -/
theorem Barren.replace {text rest behind behind' : List Char} (h : Barren text (rest ++ behind))
    (hline : StartsLine behind') (hseam : Separable (text ++ rest) behind)
    (hquote : '"' ∈ text → '"' ∉ behind → '"' ∉ behind')
    (hrest : rest ++ behind = [] ∨ canBegin (rest ++ behind) = true →
      rest ++ behind' = [] ∨ canBegin (rest ++ behind') = true) :
    Barren text (rest ++ behind') := by
  induction text with
  | nil => exact hrest h
  | cons c text ih =>
    obtain ⟨hblank, hnone⟩ := canBegin_cons.1 h.1
    rw [← List.append_assoc] at hnone
    refine ⟨canBegin_cons.2 ⟨hblank, ?_⟩, ?_⟩
    · rw [← List.append_assoc]
      refine Token.take?_eq_none_replace hline hseam ?_ hnone
      intro hc
      exact hquote (by rw [hc]; exact List.mem_cons_self)
    · refine ih h.2 (hseam.of_append_right [c]) ?_
      intro hmem
      exact hquote (List.mem_cons_of_mem c hmem)

/-- What begins behind some pieces begins there with another text as well. -/
theorem Leads.canBegin_replace {ps : List Piece} {behind behind' : List Char}
    (h : Leads ps behind) (h' : Leads ps behind') (hline : StartsLine behind')
    (hbegin : ps.flatMap chars ++ behind = [] ∨ canBegin (ps.flatMap chars ++ behind) = true) :
    ps.flatMap chars ++ behind' = [] ∨ canBegin (ps.flatMap chars ++ behind') = true := by
  cases ps with
  | nil => exact canBegin_of_startsLine hline
  | cons q ps =>
    have hne := h.1.chars_ne_nil
    rw [List.flatMap_cons, List.append_assoc] at hbegin ⊢
    right
    rcases hbegin with hnil | hbegin
    · exact absurd (List.append_eq_nil_iff.1 hnil).1 hne
    · rw [canBegin_of_precedes h'.1, ← canBegin_of_precedes h.1]
      exact hbegin

/-- **Pieces stay as they are when another text takes the place of the text behind them**, if it begins a
line, the capitals in front of it make no currency, and it closes no quote that was open. -/
theorem Leads.replace {ps : List Piece} {behind behind' : List Char} (h : Leads ps behind)
    (hline : StartsLine behind') (hseam : Separable (ps.flatMap chars) behind)
    (hquote : ∀ p ∈ ps, p.isUnreadable = true → '"' ∈ p.chars → '"' ∉ behind → '"' ∉ behind') :
    Leads ps behind' := by
  induction ps with
  | nil => trivial
  | cons p ps ih =>
    obtain ⟨hp, hps⟩ := h
    obtain ⟨hfirst, hothers⟩ := List.forall_mem_cons.1 hquote
    have hps' : Leads ps behind' := ih hps (hseam.of_append_right _) hothers
    refine ⟨?_, hps'⟩
    cases p with
    | blank text => exact hp
    | token t => exact ⟨hp.1, hp.2.replace hline⟩
    | unreadable text =>
      exact ⟨hp.1, hp.2.replace hline hseam (hfirst rfl) (hps.canBegin_replace hps' hline)⟩

/-- **A text that is cut off between two pieces** keeps the pieces before the cut. -/
theorem Cut.of_append_left {ps qs : List Piece} (h : Cut (ps ++ qs))
    (hseam : ps ≠ [] → Seam (ps.flatMap chars) (qs.flatMap chars)) : Cut ps := by
  have hleads : Leads ps [] := by
    by_cases hps : ps = []
    · rw [hps]
      trivial
    · exact h.leads.replace trivial (hseam hps).separable fun p _ _ _ _ => List.not_mem_nil
  clear hseam
  induction ps with
  | nil => trivial
  | cons p ps ih =>
    rw [List.cons_append] at h
    obtain ⟨hp, hrest⟩ := h
    obtain ⟨hp', hrest'⟩ := hleads
    rw [List.append_nil] at hp'
    rw [List.flatMap_append] at hp
    refine ⟨?_, ih hrest hrest'⟩
    cases p with
    | blank text => exact ⟨hp.1, hp.2.1, hp.2.2.of_append_left⟩
    | token t => exact hp'
    | unreadable text => exact hp'

end Daybook.Piece

namespace Daybook.Lexed

open Text Piece

/-- What is read from pieces at their places. -/
def ofPlaced (pieces : List (Spanned Piece)) : Lexed :=
  { tokens := pieces.filterMap token?, errors := pieces.filterMap error? }

/-- What is read from one text and then from another one. -/
def append (l m : Lexed) : Lexed :=
  { tokens := l.tokens ++ m.tokens, errors := l.errors ++ m.errors }

theorem append_assoc (l m n : Lexed) : (l.append m).append n = l.append (m.append n) := by
  simp only [append, List.append_assoc]

theorem ofPlaced_cons (p : Spanned Piece) (ps : List (Spanned Piece)) :
    ofPlaced (p :: ps) = (ofPlaced [p]).append (ofPlaced ps) := by
  rw [← List.singleton_append]
  simp only [ofPlaced, append, List.filterMap_append]

/-- A piece that precedes a text is read, and then the text. -/
theorem readAt_of_precedes {p : Piece} {rest : List Char} (h : p.Precedes rest) (offset : Nat) :
    readAt offset (p.chars ++ rest)
      = (ofPlaced (place offset [p])).append (readAt (offset + Utf8.width p.chars) rest) := by
  cases p with
  -- White space may become a longer run, which does not matter.
  | blank text => exact readAt_blanks h.2 offset rest
  | token t =>
    have hends : (Piece.token t).EndsBefore rest := h
    rw [readAt, split_of_endsBefore hends]
    exact ofPlaced_cons _ _
  | unreadable text =>
    have hends : (Piece.unreadable text).EndsBefore rest := h
    rw [readAt, split_of_endsBefore hends]
    exact ofPlaced_cons _ _

/-- **A text is read piece by piece**, and then what stands behind. -/
theorem readAt_of_leads {ps : List Piece} {behind : List Char} (h : Leads ps behind)
    (offset : Nat) :
    readAt offset (ps.flatMap chars ++ behind)
      = (ofPlaced (place offset ps)).append
          (readAt (offset + Utf8.width (ps.flatMap chars)) behind) := by
  induction ps generalizing offset with
  | nil => rfl
  | cons p ps ih =>
    have hplace : ofPlaced (place offset (p :: ps)) = (ofPlaced (place offset [p])).append
        (ofPlaced (place (offset + Utf8.width p.chars) ps)) := ofPlaced_cons _ _
    rw [List.flatMap_cons, List.append_assoc, readAt_of_precedes h.1, ih h.2, hplace, append_assoc,
      Utf8.width_append, Nat.add_assoc offset]

/-- **What is read from a text stays** when a line feed and another text follow it, which is then read as
if it stood there alone. -/
theorem readAt_append_newline {ps : List Piece} (h : Cut ps)
    (hquote : ∀ p ∈ ps, p.isUnreadable = true → '"' ∉ p.chars) (offset : Nat)
    (behind : List Char) :
    readAt offset (ps.flatMap chars ++ '\n' :: behind)
      = (ofPlaced (place offset ps)).append
          (readAt (offset + Utf8.width (ps.flatMap chars) + 1) behind) := by
  have hleads : Leads ps [] := by
    rw [← List.append_nil ps] at h
    exact h.leads
  have hmore : Leads ps ('\n' :: behind) :=
    hleads.replace rfl (.inl trivial) fun p hp hunreadable hmem _ =>
      absurd hmem (hquote p hp hunreadable)
  rw [readAt_of_leads hmore, readAt_blank rfl]
  rfl

end Daybook.Lexed
