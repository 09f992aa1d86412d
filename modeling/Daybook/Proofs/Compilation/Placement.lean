import Daybook.Proofs.Compilation.Excerpt
import Daybook.Proofs.Data.Ordering
import Daybook.Proofs.Ledger.Provenance
import Daybook.Proofs.Source.Boundary
import Daybook.Proofs.Syntax.Tiling

/-!
Where everything that is said about a source is.

Statements take consecutive blocks of tokens, so their spans come one after the other in the order of their
numbers (`Parsed.apart_statements`). Reading puts spans together from those of tokens by unions alone. Rounding
to whole characters preserves unions and leaves the spans of tokens alone; so it leaves all spans alone that
come from reading, those of errors as well, although these are not reported in the order of the source
(`Parsed.round_read`). Main statement: `Compilation.placement_of`.
-/

namespace Daybook

/-! ## Tokens and what is unreadable -/

namespace Lexed

/-- Tokens and lexical errors begin and end between characters. -/
theorem isWhole_of_mem_regions {source : String} {r : Spanned String}
    (h : r ∈ (of source).regions) : r.span.IsWhole source.toList := by
  have htiles := tiles_of source
  exact ⟨(htiles.boundary r h).1, (htiles.boundary r h).2, htiles.inside r h⟩

theorem mem_regions_of_token {l : Lexed} {t : Spanned Token} (h : t ∈ l.tokens) :
    tokenRegion t ∈ l.regions :=
  List.mem_merge.2 (.inl (List.mem_map_of_mem h))

theorem mem_regions_of_error {l : Lexed} {e : LexError} (h : e ∈ l.errors) :
    errorRegion e ∈ l.regions :=
  List.mem_merge.2 (.inr (List.mem_map_of_mem h))

end Lexed

namespace Parsed

open Lexed Production

/-- Significant tokens are tokens of the source. -/
theorem mem_tokens_of_significant {l : Lexed} {t : Spanned Token} (h : t ∈ significant l) :
    t ∈ l.tokens :=
  (List.mem_filter.1 h).1

theorem isWhole_of_significant {source : String} {t : Spanned Token}
    (h : t ∈ significant (Lexed.of source)) : t.span.IsWhole source.toList :=
  isWhole_of_mem_regions (mem_regions_of_token (mem_tokens_of_significant h))

/-- No significant token is empty. -/
theorem lt_of_significant {source : String} {t : Spanned Token}
    (h : t ∈ significant (Lexed.of source)) : t.span.start < t.span.stop :=
  (tiles_of source).nonempty _ (mem_regions_of_token (mem_tokens_of_significant h))

/-- Significant tokens do not overlap. -/
theorem apart_significant (source : String) : Spanned.Apart (significant (Lexed.of source)) :=
  (Lexed.apart_tokens source).filter _

/-! ## Spans of whole characters -/

/-- The last token ends between characters, and so does the beginning of the text. -/
theorem isBoundary_lastStop {text : List Char} {ts : Tokens} (h : ∀ t ∈ ts, t.span.IsWhole text) :
    IsBoundary text (lastStop ts) := by
  unfold lastStop
  cases hlast : ts.getLast? with
  | none => exact isBoundary_zero text
  | some t => exact (h t (List.mem_of_getLast? hlast)).stop

/-- **Rounding changes nothing of what is read from whole tokens.** -/
theorem round_read {text : List Char} {ts : Tokens} (hts : ∀ t ∈ ts, t.span.IsWhole text)
    (h : Lexemes ts) :
    (read (lastStop ts) ts).relocate (Span.round text) = read (lastStop ts) ts := by
  have htokens : ts.map (Spanned.relocate (Span.round text)) = ts := by
    refine (List.map_congr_left fun t ht => ?_).trans (List.map_id ts)
    rw [Spanned.relocate, Span.isWhole_iff.1 (hts t ht)]
    rfl
  have hstop : Span.round text (Span.point (lastStop ts)) = Span.point (lastStop ts) :=
    Span.isWhole_iff.1 (Span.isWhole_point_iff.2 (isBoundary_lastStop hts))
  have hread := read_relocate (Span.preservesUnion_round text) hstop h
  rw [htokens] at hread
  exact hread.symm

variable {source : String}

/-- Rounding changes nothing of what is read from a source. -/
theorem round_of (source : String) :
    (of (Lexed.of source).tokens).relocate (Span.round source.toList)
      = of (Lexed.of source).tokens := by
  rw [of_tokens]
  exact round_read (fun t ht => isWhole_of_significant ht) (lexemes_significant source)

/-- Statements begin and end between characters. -/
theorem isWhole_of_mem_statements {p : Spanned Statement}
    (h : p ∈ (of (Lexed.of source).tokens).statements) : p.span.IsWhole source.toList := by
  have hall := statements_relocate (f := Span.round source.toList) (of (Lexed.of source).tokens)
  rw [round_of] at hall
  have hfixed := List.map_inj_left.1 ((List.map_id _).trans hall) p h
  exact Span.isWhole_iff.2 (congrArg Spanned.span hfixed).symm

/-- Syntax errors begin and end between characters. -/
theorem isWhole_of_mem_errors {e : ParseError} (h : e ∈ (of (Lexed.of source).tokens).errors) :
    e.span.IsWhole source.toList := by
  have hall := errors_relocate (f := Span.round source.toList) (of (Lexed.of source).tokens)
  rw [round_of] at hall
  have hfixed := List.map_inj_left.1 ((List.map_id _).trans hall) e h
  exact Span.isWhole_iff.2 (congrArg ParseError.span hfixed).symm

/-! ## One statement after the other -/

/-- Tokens that are not empty have an extent that is not. -/
theorem extent_nonempty {ts : Tokens} (hne : ts ≠ []) (h : ∀ t ∈ ts, t.span.start < t.span.stop) :
    (Spanned.extent ts).start < (Spanned.extent ts).stop := by
  obtain ⟨t, more, rfl⟩ := List.exists_cons_of_ne_nil hne
  have hlt := h t List.mem_cons_self
  have hinside := Spanned.inside_extent (List.mem_cons_self : t ∈ t :: more)
  omega

/-- Blocks of tokens that are apart have extents that are. -/
theorem pairwise_extent {blocks : List Block} (h : Spanned.Apart (Block.join blocks))
    (hne : ∀ b ∈ blocks, b.tokens ≠ []) : blocks.Pairwise fun b c =>
      (Spanned.extent b.tokens).stop ≤ (Spanned.extent c.tokens).start := by
  induction blocks with
  | nil => exact List.Pairwise.nil
  | cons b blocks ih =>
    obtain ⟨hb, hmore⟩ := List.forall_mem_cons.1 hne
    have hjoin : Block.join (b :: blocks) = b.tokens ++ Block.join blocks := rfl
    rw [hjoin] at h
    refine List.pairwise_cons.2 ⟨?_, ih (List.pairwise_append.1 h).2.1 hmore⟩
    intro c hc
    have hsublist : c.tokens.Sublist (Block.join blocks) := by
      rw [Block.join, List.flatMap_def]
      exact List.sublist_flatten_of_mem (List.mem_map_of_mem hc)
    have hpair : Spanned.Apart (b.tokens ++ c.tokens) := h.sublist (hsublist.append_left _)
    exact hpair.extent hb (hmore c hc)

/-- A statement has the extent of its block. -/
theorem exists_block_statements (source : String) : ∃ blocks : List Block,
    (of (Lexed.of source).tokens).statements = blocks.filterMap (fun b => b.outcome.toOption)
      ∧ (blocks.Pairwise fun b c =>
        (Spanned.extent b.tokens).stop ≤ (Spanned.extent c.tokens).start)
      ∧ ∀ b ∈ blocks, (Spanned.extent b.tokens).start < (Spanned.extent b.tokens).stop
        ∧ ∀ s, b.outcome.toOption = some s → s.span = Spanned.extent b.tokens := by
  have happart := apart_significant source
  obtain ⟨blocks, houtcomes, haccounts⟩ :=
    exists_accounts (lastStop (significant (Lexed.of source))) (lexemes_significant source)
  have hincreasing := Spanned.Apart.increasing happart
  refine ⟨blocks, ?_, ?_, ?_⟩
  · rw [of_tokens, statements, ← houtcomes, List.filterMap_map]
    rfl
  · rw [← haccounts.join_eq] at happart
    exact pairwise_extent happart haccounts.ne_nil
  · intro b hb
    constructor
    · apply extent_nonempty (haccounts.ne_nil b hb)
      intro t ht
      apply lt_of_significant
      rw [← haccounts.join_eq]
      exact List.mem_flatMap.2 ⟨b, hb, ht⟩
    · intro s hs
      cases houtcome : b.outcome with
      | error e =>
        rw [houtcome] at hs
        cases hs
      | ok p =>
        rw [houtcome] at hs
        rw [← Option.some.inj hs]
        exact (haccounts.statement b hb p houtcome).2 hincreasing

/-- **Statements are not empty, and each of them ends before the next one starts.** -/
theorem apart_statements (source : String) :
    (∀ p ∈ (of (Lexed.of source).tokens).statements, p.span.start < p.span.stop)
      ∧ Spanned.Apart (of (Lexed.of source).tokens).statements := by
  obtain ⟨blocks, hstatements, hpairwise, hblocks⟩ := exists_block_statements source
  rw [hstatements]
  constructor
  · intro p hp
    obtain ⟨b, hb, hoption⟩ := List.mem_filterMap.1 hp
    obtain ⟨hlt, hspan⟩ := hblocks b hb
    rw [hspan p hoption]
    exact hlt
  · unfold Spanned.Apart
    rw [List.pairwise_filterMap]
    refine hpairwise.imp_of_mem ?_
    intro b c hb hc hle p hp q hq
    rw [(hblocks b hb).2 p hp, (hblocks c hc).2 q hq]
    exact hle

/-- Statements both begin and end in the order in which they are listed. -/
theorem increasing_statements (source : String) :
    (of (Lexed.of source).tokens).statements.Pairwise fun p q =>
      p.span.start < q.span.start ∧ p.span.stop < q.span.stop := by
  obtain ⟨hnonempty, happart⟩ := apart_statements source
  refine happart.imp_of_mem ?_
  intro p q hp hq hle
  have hp' := hnonempty p hp
  have hq' := hnonempty q hq
  omega

/-- Two statements are not at one place. -/
theorem eq_of_span_eq {p q : Spanned Statement}
    (hp : p ∈ (of (Lexed.of source).tokens).statements)
    (hq : q ∈ (of (Lexed.of source).tokens).statements) (h : p.span = q.span) : p = q := by
  have hnodup : ((of (Lexed.of source).tokens).statements.map (·.span)).Nodup := by
    rw [List.nodup_iff_pairwise_ne, List.pairwise_map]
    refine (increasing_statements source).imp ?_
    rintro p q ⟨hlt, -⟩ heq
    rw [heq] at hlt
    exact Nat.lt_irrefl _ hlt
  exact List.inj_on_of_nodup_map hnodup hp hq h

end Parsed

/-! ## What is reported -/

/-- Spans are sorted by where they begin, and those that begin together by where they end. -/
theorem Span.sorts_precedes : Sorts Span.precedes where
  trans a b c hab hbc := by
    simp only [Span.precedes, Bool.or_eq_true, Bool.and_eq_true, decide_eq_true_iff] at *
    omega
  total a b := by
    simp only [Span.precedes, Bool.or_eq_true, Bool.and_eq_true, decide_eq_true_iff]
    omega

namespace Compilation

open Ledger

/-- How a source, and the ledger and the diagnostics of a compilation agree on places. -/
structure Placement (source : String) (c : Compilation) : Prop where
  nonempty : ∀ p ∈ c.ledger.statements, p.span.start < p.span.stop
  /-- In the order of their numbers, each statement ends before the next one starts. -/
  apart : Spanned.Apart c.ledger.statements
  increasing : c.ledger.statements.Pairwise fun p q =>
    p.span.start < q.span.start ∧ p.span.stop < q.span.stop
  whole : ∀ p ∈ c.ledger.statements, p.span.IsWhole source.toList
  /-- Entries with one parent have the same span, date and description. -/
  agree : ∀ e ∈ c.ledger.entries, ∀ other ∈ c.ledger.entries, e.parent = other.parent →
    e.span = other.span ∧ e.date = other.date ∧ e.description = other.description
  /-- They stand next to each other. -/
  adjacent : ∀ key : Int,
    c.ledger.entries.filter (fun e => decide (e.parent = some key)) <:+: c.ledger.entries
  reported : ∀ d ∈ c.diagnostics, d.span.IsWhole source.toList
  sorted : c.diagnostics.Pairwise fun d e =>
    d.span.start < e.span.start ∨ d.span.start = e.span.start ∧ d.span.stop ≤ e.span.stop
  /-- What is found wrong is found at a statement, and at one only. -/
  found : ∀ names failFast v, c.ledger.validate names failFast = .ok v →
    ∀ f ∈ v.findings, ∀ span, f.span? = some span →
      ∃! p, p ∈ c.ledger.statements ∧ p.span = span

theorem ledger_of (source : String) :
    (of source).ledger = build (of source).parsed.statements := rfl

/-- The statements of the ledger are those that were read. -/
theorem statements_ledger_of (source : String) :
    (of source).ledger.statements = (Parsed.of (Lexed.of source).tokens).statements := by
  rw [ledger_of, (lossless_build _).statements, parsed_of]

/-- Whatever is reported of a source begins and ends between characters. -/
theorem isWhole_of_mem_diagnostics {source : String} {d : Diagnostic}
    (h : d ∈ (of source).diagnostics) : d.span.IsWhole source.toList := by
  rw [diagnostics, List.mem_mergeSort, lexed_of, parsed_of] at h
  rcases List.mem_append.1 h with hlexical | hsyntactic
  · obtain ⟨e, he, rfl⟩ := List.mem_map.1 hlexical
    exact Lexed.isWhole_of_mem_regions (Lexed.mem_regions_of_error he)
  · obtain ⟨e, he, rfl⟩ := List.mem_map.1 hsyntactic
    exact Parsed.isWhole_of_mem_errors he

/-- Diagnostics are listed by where they begin and end, though lexical errors are found first. -/
theorem sorted_diagnostics (c : Compilation) : c.diagnostics.Pairwise fun d e =>
    d.span.start < e.span.start ∨ d.span.start = e.span.start ∧ d.span.stop ≤ e.span.stop := by
  have hsorts : Sorts fun d e : Diagnostic => d.span.precedes e.span :=
    ⟨fun _ _ _ => Span.sorts_precedes.trans _ _ _, fun _ _ => Span.sorts_precedes.total _ _⟩
  refine (hsorts.pairwise _).imp ?_
  intro d e h
  simpa only [Span.precedes, Bool.or_eq_true, Bool.and_eq_true, decide_eq_true_iff] using h

/-- **Spans and numbers agree.** In the order of their numbers the statements of a ledger stand one behind
the other in the source; the entries of a transaction have its place, date and description; and whatever is
reported is reported at whole characters of the source, findings at just one of the statements. -/
theorem placement_of (source : String) : Placement source (of source) := by
  obtain ⟨hnonempty, happart⟩ := Parsed.apart_statements source
  constructor
  case nonempty => rwa [statements_ledger_of]
  case apart => rwa [statements_ledger_of]
  case increasing =>
    rw [statements_ledger_of]
    exact Parsed.increasing_statements source
  case whole =>
    rw [statements_ledger_of]
    intro p hp
    exact Parsed.isWhole_of_mem_statements hp
  case agree =>
    intro e he other hother h
    exact eq_of_parent_eq he hother h
  case adjacent => exact isInfix_filter_parent 1 _
  case reported =>
    intro d hd
    exact isWhole_of_mem_diagnostics hd
  case sorted => exact sorted_diagnostics (of source)
  case found =>
    intro names failFast v hv f hf span hspan
    rw [ledger_of, parsed_of] at hv
    obtain ⟨p, hp, rfl⟩ := Validation.exists_of_mem_findings hv hf hspan
    rw [statements_ledger_of]
    refine ⟨p, ⟨hp, rfl⟩, ?_⟩
    rintro q ⟨hq, hqp⟩
    exact Parsed.eq_of_span_eq hq hp hqp

end Compilation

end Daybook
