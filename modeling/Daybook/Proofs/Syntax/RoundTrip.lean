import Daybook.Proofs.Syntax.Acceptance
import Daybook.Proofs.Syntax.Blocks
import Daybook.Proofs.Syntax.Writing

/-!
Writing statements and reading them back.

A text yields statements if it is read without any error as just these, each of them with its span
(`Yields`). What a statement is written as yields the statement in front of whatever follows it, so a
whole list of statements, one below the other, is read back with the byte range of each text.
-/

namespace Daybook

/-- The text of statements, one below the other. -/
def Statement.source (ss : List Statement) : String :=
  String.intercalate "\n" (ss.map Statement.text)

/-- The statements with the byte ranges of their texts, where the first one starts at the given offset
and a line feed stands between two of them. -/
def Statement.placed (offset : Nat) : List Statement → List (Spanned Statement)
  | [] => []
  | s :: ss =>
    let stop := offset + Text.Utf8.width s.text.toList
    ⟨s, ⟨offset, stop, Nat.le_add_right _ _⟩⟩ :: placed (stop + 1) ss

namespace Parsed

open Grammar Production Text

/-- The statement that a block is, is read with the extent of the block. -/
theorem statement_of_isStatement {block rest : Tokens} {s : Statement}
    (h : IsStatement (block.map (·.value)) s) (hblock : Spanned.Increasing block)
    (hrest : EndsBefore s rest) :
    statement (block ++ rest) = .ok (⟨s, Spanned.extent block⟩, rest) := by
  obtain ⟨span, hspan⟩ := accepts_of_isStatement h
  -- The span does not depend on the rest, so it is that of the block read alone.
  have halone := hspan [] (endsBefore_number s rfl (.inl rfl))
  obtain ⟨-, block', happend, -, hextent⟩ := reads_of_statement halone
  rw [List.append_cancel_right happend] at hblock ⊢
  rw [← hextent hblock, ← List.append_cancel_right happend]
  exact hspan rest hrest

/-- The tokens are read as just these statements, and nothing in the text was unreadable. -/
structure Yields (l : Lexed) (ps : List (Spanned Statement)) : Prop where
  errors_eq : l.errors = []
  significant : Significant l.tokens
  head : l.tokens.map (·.value) = [] ∨ ∃ year us, l.tokens.map (·.value) = .number year :: us
  read_eq : ∀ stop, read stop l.tokens = ⟨ps.map .ok, none⟩

theorem Yields.nil : Yields ⟨[], []⟩ [] where
  errors_eq := rfl
  significant := by simp [Significant]
  head := .inl rfl
  read_eq := by
    intro stop
    rw [read_nil]
    rfl

/-- One more statement in front. What it begins with ends any statement before it. -/
theorem Yields.prepend {l : Lexed} {ps : List (Spanned Statement)} {block : Tokens} {s : Statement}
    (h : Yields l ps) (hstatement : IsStatement (block.map (·.value)) s)
    (hblock : Spanned.Increasing block) (hsignificant : Significant block) :
    Yields (l.prepend block) (⟨s, Spanned.extent block⟩ :: ps) where
  errors_eq := h.errors_eq
  significant := by
    intro t ht
    rcases List.mem_append.1 ht with ht | ht
    · exact hsignificant t ht
    · exact h.significant t ht
  head := by
    obtain ⟨year, us, hvalues⟩ := hstatement.exists_cons
    refine .inr ⟨year, us ++ l.tokens.map (·.value), ?_⟩
    rw [Lexed.prepend, List.map_append, hvalues]
    rfl
  read_eq := by
    intro stop
    have hone := statement_of_isStatement hstatement hblock (endsBefore_number s rfl h.head)
    have hcons : ∃ t ts, block ++ l.tokens = t :: ts := by
      obtain ⟨year, us, hvalues⟩ := hstatement.exists_cons
      obtain ⟨t, ts, rfl, -⟩ := List.map_eq_cons_iff.1 hvalues
      exact ⟨t, ts ++ l.tokens, rfl⟩
    obtain ⟨t, ts, hcons⟩ := hcons
    rw [hcons] at hone
    rw [Lexed.prepend, hcons, read_of_ok hone, h.read_eq]
    rfl

/-- **A written statement** in front of a text that goes on with a break. -/
theorem yields_statement {offset : Nat} {s : Statement} {rest : List Char}
    {ps : List (Spanned Statement)} (hs : s.Writable) (hrest : Token.AtBreak rest)
    (h : Yields (Lexed.readAt (offset + Utf8.width s.text.toList) rest) ps) :
    Yields (Lexed.readAt offset (s.text.toList ++ rest))
      (⟨s, ⟨offset, offset + Utf8.width s.text.toList, Nat.le_add_right _ _⟩⟩ :: ps) := by
  obtain ⟨ts, hstatement, hspells⟩ := exists_spelling hs
  obtain ⟨block, rfl, hfills, hreadAt⟩ := Lexed.readAt_append hspells hrest offset
  have hsignificant : Significant block := by
    intro t ht
    exact hspells.wellFormed t.value (List.mem_map_of_mem ht)
  rw [hreadAt, ← hfills.extent_eq]
  exact h.prepend hstatement hfills.increasing hsignificant

/-- Statements that are written one per line are read back, with their places. -/
theorem yields_source {ss : List Statement} (h : ∀ s ∈ ss, s.Writable) (offset : Nat) :
    Yields (Lexed.readAt offset (Statement.source ss).toList) (Statement.placed offset ss) := by
  induction ss generalizing offset with
  | nil =>
    rw [show (Statement.source []).toList = [] by simp [Statement.source], Lexed.readAt_nil]
    exact .nil
  | cons s ss ih =>
    have hs := h s List.mem_cons_self
    have hss := ih (fun t ht => h t (List.mem_cons_of_mem s ht))
    cases ss with
    | nil =>
      have hsource : (Statement.source [s]).toList = s.text.toList ++ [] := by
        simp [Statement.source]
      rw [hsource]
      refine yields_statement hs trivial ?_
      rw [Lexed.readAt_nil]
      exact .nil
    | cons t ss =>
      have hsource : (Statement.source (s :: t :: ss)).toList
          = s.text.toList ++ ('\n' :: (Statement.source (t :: ss)).toList) := by
        simp [Statement.source, String.toList_intercalate]
      rw [hsource]
      refine yields_statement hs (.inl rfl) ?_
      rw [Lexed.readAt_blank rfl]
      exact hss _

/-! ## What is read -/

/-- Whatever is read can be written. -/
theorem writable_of_mem {source : String} {p : Spanned Statement}
    (hp : p ∈ (of (Lexed.of source).tokens).statements) : p.value.Writable := by
  have hlexemes := lexemes_significant source
  obtain ⟨before, block, after, hblock, hstatement, -⟩ := exists_block_of_mem hlexemes hp
  refine writable_of_isStatement hstatement ?_
  intro value hvalue
  obtain ⟨t, ht, rfl⟩ := List.mem_map.1 hvalue
  refine hlexemes t ?_
  rw [hblock]
  exact List.mem_append_right before (List.mem_append_left after ht)

/-- **What is written is read back, and nothing else is read.** Statements that can be written, one below
the other, are read without any error as the same statements in order, each of them with the byte range
of its own text. Conversely, whatever statement is read from a source can be written. -/
theorem of_source :
    (∀ ss : List Statement, (∀ s ∈ ss, s.Writable) →
      (Lexed.of (Statement.source ss)).errors = []
      ∧ (of (Lexed.of (Statement.source ss)).tokens).errors = []
      ∧ (of (Lexed.of (Statement.source ss)).tokens).statements = Statement.placed 0 ss
      ∧ (of (Lexed.of (Statement.source ss)).tokens).fault = none)
    ∧ ∀ source : String, ∀ p ∈ (of (Lexed.of source).tokens).statements, p.value.Writable := by
  refine ⟨?_, fun source p hp => writable_of_mem hp⟩
  intro ss h
  obtain ⟨herrors, hsignificant, -, hread⟩ := yields_source h 0
  rw [← Lexed.of_eq_readAt] at herrors hsignificant hread
  have hok (ps : List (Spanned Statement)) : (Parsed.mk (ps.map .ok) none).errors = []
      ∧ (Parsed.mk (ps.map .ok) none).statements = ps := by
    induction ps with
    | nil => exact ⟨rfl, rfl⟩
    | cons p ps ih => exact ⟨ih.1, congrArg (p :: ·) ih.2⟩
  rw [of_eq_read hsignificant, hread]
  exact ⟨herrors, (hok _).1, (hok _).2, rfl⟩

/-- A quarter less than nothing is asserted, and a half is moved from and to one account. -/
def sample : List Statement :=
  [openingStatement, .assertion sampleDay cash ⟨mkRat (-25) (10 ^ 2), brl⟩,
    .transaction sampleDay "café // leite\n2020-01-01"
      [⟨.debit, ⟨mkRat 5 (10 ^ 1), brl⟩, cash⟩,
        ⟨.credit, ⟨mkRat 5 (10 ^ 1), brl⟩, cash⟩] (List.cons_ne_nil _ _)]

/-- The sample is written and read back. -/
theorem of_source_sample :
    (∀ s ∈ sample, s.Writable)
    ∧ (Lexed.of (Statement.source sample)).errors = []
    ∧ (of (Lexed.of (Statement.source sample)).tokens).errors = []
    ∧ (of (Lexed.of (Statement.source sample)).tokens).statements = Statement.placed 0 sample
    ∧ (of (Lexed.of (Statement.source sample)).tokens).fault = none := by
  have hdate : sampleDay.Writable := ⟨by decide, by decide⟩
  have hleg (direction : Direction) :
      Movement.Writable ⟨direction, ⟨mkRat 5 (10 ^ 1), brl⟩, cash⟩ :=
    ⟨Rat.mkRat_nonneg (by decide) _, Amount.isTerminating_mkRat 5 1⟩
  have hsample : ∀ s ∈ sample, s.Writable := by
    simp only [sample, openingStatement, List.forall_mem_cons, Statement.Writable]
    exact ⟨hdate, ⟨hdate, Amount.isTerminating_mkRat (-25) 2⟩,
      ⟨hdate, by decide, hleg .debit, hleg .credit, by simp⟩, by simp⟩
  exact ⟨hsample, of_source.1 sample hsample⟩

end Parsed

end Daybook
