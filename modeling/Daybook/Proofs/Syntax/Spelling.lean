import Daybook.Proofs.Source.Extent
import Daybook.Proofs.Syntax.Cutting

/-!
Texts that spell given tokens.

`Spells ts cs` says that the text `cs` consists of the tokens `ts` with blanks between them, which may be
missing next to a separator only. Such a text is read as just these tokens, wherever it stands and
whatever goes on behind it with a break, and together they take up all of its bytes (`readAt_append`).
-/

namespace Daybook.Token

open Text

/-- Whether it stands next to other tokens without a blank. -/
def joins : Token → Bool
  | .separator _ => true
  | _ => false

/-- Whether the text may stand between the two tokens. -/
structure Gap (t : Token) (blanks : List Char) (u : Token) : Prop where
  isBlank : ∀ c ∈ blanks, isBlank c = true
  joined : blanks = [] → t.joins = true ∨ u.joins = true

/-- A text that consists of the given tokens, none of them a comment. -/
inductive Spells : List Token → List Char → Prop
  | single {t : Token} (wellFormed : t.WellFormed) (significant : t.isComment = false) :
      Spells [t] t.chars
  | cons {t u : Token} {ts : List Token} {blanks cs : List Char} (wellFormed : t.WellFormed)
      (significant : t.isComment = false) (gap : Gap t blanks u) (more : Spells (u :: ts) cs) :
      Spells (t :: u :: ts) (t.chars ++ (blanks ++ cs))

/-- Whether a blank or a separator stands at the front, or nothing. -/
def AtBreak : List Char → Prop
  | [] => True
  | c :: _ => isBlank c = true ∨ c = ':' ∨ c = '-'

theorem endsBefore_nil (t : Token) : t.EndsBefore [] := by
  cases t with
  | number literal => exact ⟨trivial, fun _ _ hcons => by cases hcons⟩
  | _ => trivial

/-- No token but a comment goes on past a break. -/
theorem endsBefore_of_atBreak {t : Token} {rest : List Char} (h : t.isComment = false)
    (hrest : AtBreak rest) : t.EndsBefore rest := by
  cases rest with
  | nil => exact t.endsBefore_nil
  | cons c rest =>
    have hnat : c.toNat < 48 ∨ c.toNat = 58 := by
      rcases hrest with hblank | rfl | rfl
      · have := toNat_of_isBlank hblank; omega
      · exact .inr rfl
      · exact .inl (by decide)
    have hdigit : Digit.ofChar? c = none := by
      rw [Digit.ofChar?, dif_neg (by omega)]
    have hupper : c.isUpper = false := by
      rw [Bool.eq_false_iff, Ne, isUpper_iff]; omega
    have hletter : isIdentifierChar c = false := by
      have hlower : c.isLower = false := by
        rw [Bool.eq_false_iff, Ne, isLower_iff]; omega
      have hunderscore : c ≠ '_' := by
        rintro rfl
        exact absurd hnat (by decide)
      rw [isIdentifierChar, hlower, decide_eq_false hunderscore]
      rfl
    have hpoint : c ≠ '.' := by
      rintro rfl
      exact (by decide : ¬ (isBlank '.' = true ∨ '.' = ':' ∨ '.' = '-')) hrest
    cases t with
    | identifier name => exact hletter
    | number literal => exact ⟨hdigit, fun _ cs hcons => absurd (List.cons.inj hcons).1 hpoint⟩
    | currency code => exact hupper
    | comment content => cases h
    | _ => trivial

namespace Spells

/-- What spells a text has a token. -/
theorem exists_cons {ts : List Token} {cs : List Char} (h : Spells ts cs) :
    ∃ u us, ts = u :: us := by
  cases h with
  | single => exact ⟨_, _, rfl⟩
  | cons => exact ⟨_, _, rfl⟩

/-- What spells a text is well-formed tokens, and no comments. -/
theorem wellFormed {ts : List Token} {cs : List Char} (h : Spells ts cs) :
    ∀ t ∈ ts, t.WellFormed ∧ t.isComment = false := by
  induction h with
  | single wellFormed significant =>
    intro t ht
    rw [List.mem_singleton.1 ht]
    exact ⟨wellFormed, significant⟩
  | cons wellFormed significant _ _ ih =>
    intro t ht
    rcases List.mem_cons.1 ht with rfl | ht
    · exact ⟨wellFormed, significant⟩
    · exact ih t ht

/-- A separator needs no blank next to it. -/
theorem joined {t u : Token} {ts : List Token} {cs : List Char} (wellFormed : t.WellFormed)
    (significant : t.isComment = false) (h : t.joins = true ∨ u.joins = true)
    (more : Spells (u :: ts) cs) : Spells (t :: u :: ts) (t.chars ++ cs) := by
  have gap : Gap t [] u := ⟨by simp, fun _ => h⟩
  exact cons wellFormed significant gap more

/-- A blank may stand between any two tokens. -/
theorem spaced {c : Char} {ts us : List Token} {cs ds : List Char} (hc : isBlank c = true)
    (hts : Spells ts cs) (hus : Spells us ds) : Spells (ts ++ us) (cs ++ c :: ds) := by
  obtain ⟨u, us, rfl⟩ := hus.exists_cons
  induction hts with
  | @single t wellFormed significant =>
    have gap : Gap t [c] u := by
      refine ⟨?_, fun hnil => by cases hnil⟩
      intro d hd
      rwa [List.mem_singleton.1 hd]
    exact cons wellFormed significant gap hus
  | cons wellFormed significant gap _ ih =>
    rw [List.append_assoc, List.append_assoc]
    exact cons wellFormed significant gap ih

/-- The first token ends where the others begin. -/
theorem atBreak_gap {t u : Token} {ts : List Token} {blanks cs : List Char} (gap : Gap t blanks u)
    (h : Spells (u :: ts) cs) (rest : List Char) :
    t.joins = true ∨ AtBreak (blanks ++ cs ++ rest) := by
  cases blanks with
  | cons c blanks => exact .inr (.inl (gap.isBlank c List.mem_cons_self))
  | nil =>
    rcases gap.joined rfl with ht | hu
    · exact .inl ht
    · right
      have hwellFormed := (h.wellFormed u List.mem_cons_self).1
      obtain ⟨ds, rfl⟩ : ∃ ds, cs = u.chars ++ ds := by
        cases h with
        | single => exact ⟨[], (List.append_nil _).symm⟩
        | cons => exact ⟨_, rfl⟩
      cases u with
      | separator symbol =>
        rcases hwellFormed with rfl | rfl
        · exact .inr (.inl rfl)
        · exact .inr (.inr rfl)
      | _ => cases hu

end Spells

end Daybook.Token

namespace Daybook.Lexed

open Text Token

/-- The tokens increase from the offset on, and together they take up so many bytes. -/
structure Fills (offset width : Nat) (block : List (Spanned Token)) : Prop where
  increasing : Spanned.Increasing block
  le_start : ∀ t ∈ block, offset ≤ t.span.start
  extent_eq : Spanned.extent block = ⟨offset, offset + width, Nat.le_add_right _ _⟩

/-- A token with a gap behind it may be put in front of tokens that fill a text. -/
theorem Fills.cons {offset width gap width' : Nat} {t : Token} {block : List (Spanned Token)}
    (h : Fills (offset + width + gap) width' block) (hne : block ≠ []) :
    Fills offset (width + (gap + width'))
      (⟨t, ⟨offset, offset + width, Nat.le_add_right _ _⟩⟩ :: block) where
  increasing := by
    refine List.pairwise_cons.2 ⟨?_, h.increasing⟩
    intro u hu
    have hstart := h.le_start u hu
    have hspan := u.span.start_le_stop
    exact ⟨by simp only; omega, by simp only; omega⟩
  le_start := by
    intro u hu
    rcases List.mem_cons.1 hu with rfl | hu
    · exact Nat.le_refl offset
    · have hstart := h.le_start u hu
      omega
  extent_eq := by
    rw [← List.singleton_append, Spanned.extent_append (List.cons_ne_nil _ []) hne, h.extent_eq]
    refine Span.eq_of_bounds ?_ ?_
    · simp only [Span.union, Spanned.extent_singleton]; omega
    · simp only [Span.union, Spanned.extent_singleton]; omega

/-- **A text is read as the tokens that it spells.** -/
theorem readAt_append {ts : List Token} {cs rest : List Char} (h : Spells ts cs)
    (hrest : AtBreak rest) (offset : Nat) :
    ∃ block, block.map (·.value) = ts ∧ Fills offset (Utf8.width cs) block
      ∧ readAt offset (cs ++ rest) = (readAt (offset + Utf8.width cs) rest).prepend block := by
  induction h generalizing offset with
  | @single t wellFormed significant =>
    refine ⟨_, rfl, ?_, readAt_token wellFormed (endsBefore_of_atBreak significant hrest) offset⟩
    exact ⟨List.pairwise_singleton _ _, by simp, rfl⟩
  | @cons t u ts blanks cs wellFormed significant gap more ih =>
    -- Either the token is a separator, which nothing goes on with, or a break follows it.
    have hends : t.EndsBefore (blanks ++ cs ++ rest) := by
      rcases more.atBreak_gap gap rest with hjoins | hbreak
      · cases t with
        | separator => trivial
        | _ => cases hjoins
      · exact endsBefore_of_atBreak significant hbreak
    obtain ⟨block, hvalues, hfills, hread⟩ :=
      ih (offset + Utf8.width t.chars + Utf8.width blanks)
    refine ⟨⟨t, ⟨offset, offset + Utf8.width t.chars, Nat.le_add_right _ _⟩⟩ :: block, ?_, ?_, ?_⟩
    · rw [List.map_cons, hvalues]
    · rw [Utf8.width_append, Utf8.width_append]
      refine hfills.cons ?_
      rintro rfl
      cases hvalues
    · rw [List.append_assoc, readAt_token wellFormed hends, List.append_assoc,
        readAt_blanks gap.isBlank, hread, prepend_prepend, Utf8.width_append, Utf8.width_append,
        Nat.add_assoc, Nat.add_assoc]
      rfl

end Daybook.Lexed
