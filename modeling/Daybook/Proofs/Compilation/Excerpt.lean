import Daybook.Proofs.Compilation.Concatenation
import Daybook.Proofs.Syntax.RoundTrip

/-!
The text of a statement, cut out of its source.

A statement that is read from a source takes the pieces of the source from its first token to its last one,
with all that is skipped between them. Its span covers just these pieces, and they are the pieces of their
own text as well: a statement ends with a token, so nothing is torn where the text is cut off.
Hence the text in the span of a statement is read as this statement and nothing else
(`Compilation.of_slice`).
-/

namespace Daybook

/-- Whether the other span lies inside of the span. -/
def Span.encloses (s t : Span) : Bool :=
  decide (s.start ≤ t.start ∧ t.stop ≤ s.stop)

/-- A span encloses another one if it begins no later and ends no earlier. -/
theorem Span.encloses_iff {s t : Span} :
    s.encloses t = true ↔ s.start ≤ t.start ∧ t.stop ≤ s.stop := decide_eq_true_iff

namespace Token

/-! ## Where a statement ends -/

/-- Whether a statement can end with the token. -/
def closes : Token → Bool
  | .identifier _ => true
  | .currency _ => true
  | _ => false

end Token

namespace Grammar

/-- Whether the last of the tokens is one with which a statement can end. -/
def Closed (ts : List Token) : Prop :=
  ∃ init t, ts = init ++ [t] ∧ t.closes = true

/-- Only the end of some tokens decides whether they are closed. -/
theorem Closed.append {us : List Token} (ts : List Token) (h : Closed us) : Closed (ts ++ us) := by
  obtain ⟨init, t, rfl, hcloses⟩ := h
  exact ⟨ts ++ init, t, (List.append_assoc ts init [t]).symm, hcloses⟩

theorem Closed.cons {us : List Token} (t : Token) (h : Closed us) : Closed (t :: us) :=
  h.append [t]

/-- A path ends in a segment, or with the token in front of it if it has none. -/
theorem IsPath.closed {ts : List Token} {names : List String} (h : IsPath ts names)
    (t : Token) (ht : t.closes = true) : Closed (t :: ts) := by
  induction h generalizing t with
  | nil => exact ⟨[], t, rfl, ht⟩
  | @cons name ts names _ ih => exact ((ih (.identifier name) rfl).cons (.separator ":")).cons t

/-- An account ends in its kind or in a segment. -/
theorem IsAccount.closed {ts : List Token} {a : Account} (h : IsAccount ts a) : Closed ts := by
  obtain ⟨path⟩ := h
  exact path.closed _ rfl

theorem IsUnsigned.closed {ts : List Token} {m : Money} (h : IsUnsigned ts m) : Closed ts := by
  obtain @⟨number, currency⟩ := h
  exact ⟨[.number number], .currency currency.code, rfl, rfl⟩

theorem IsSigned.closed {ts : List Token} {m : Money} (h : IsSigned ts m) : Closed ts := by
  cases h with
  | plain amount => exact amount.closed
  | minus amount => exact amount.closed.cons _

/-- Movements end in the account of the last one. -/
theorem IsMovements.closed {ts : List Token} {ms : List Movement} (h : IsMovements ts ms)
    (hne : ms ≠ []) : Closed ts := by
  induction h with
  | nil => exact absurd rfl hne
  | @cons ts us m ms first others ih =>
    by_cases hms : ms = []
    · subst hms
      rw [others.eq_nil, List.append_nil]
      obtain ⟨amount, account⟩ := first
      exact account.closed.append _
    · exact (ih hms).append ts

/-- What stands behind the date of a statement ends in a token that closes. -/
theorem IsBody.closed {date : Date} {ts : List Token} {s : Statement} (h : IsBody date ts s) :
    Closed ts := by
  cases h with
  | @opening ts a c account => exact ⟨.identifier "open" :: ts, .currency c.code, rfl, rfl⟩
  | assertion account amount => exact amount.closed.append _
  | @transaction ts description ms ne_nil legs => exact ((legs.closed ne_nil).cons _).cons _

/-- No statement ends in a token that what follows could make longer. -/
theorem IsStatement.closed {ts : List Token} {s : Statement} (h : IsStatement ts s) :
    Closed ts := by
  cases h with
  | bare day body => exact body.closed.append _
  | colon day body => exact (body.closed.cons _).append _

/-- A statement has two ends: a number, and a currency or a word. -/
theorem IsStatement.exists_ends {ts : List Token} {s : Statement} (h : IsStatement ts s) :
    ∃ year us t, ts = .number year :: us ++ [t] ∧ t.closes = true := by
  obtain ⟨year, rest, hcons⟩ := h.exists_cons
  obtain ⟨init, t, hconcat, hcloses⟩ := h.closed
  cases init with
  | nil =>
    rw [hcons] at hconcat
    obtain ⟨rfl, -⟩ := List.cons.inj hconcat
    cases hcloses
  | cons u us =>
    rw [hcons] at hconcat
    obtain ⟨rfl, rfl⟩ := List.cons.inj hconcat
    exact ⟨year, us, t, hcons, hcloses⟩

end Grammar

/-! ## The pieces of a statement -/

section Between

variable {α β : Type}

/-- The members that give the first value, the last one, and those between them. -/
theorem exists_between {f : α → Option β} {l : List α} {before inner after : List β}
    {first last : β} (h : l.filterMap f = before ++ (first :: inner ++ [last] ++ after)) :
    ∃ us a m z vs, l = us ++ (a :: m ++ [z] ++ vs) ∧ f a = some first
      ∧ m.filterMap f = inner ∧ f z = some last := by
  obtain ⟨us, rest, rfl, -, hrest⟩ := List.filterMap_eq_append_iff.1 h
  rw [List.append_assoc, List.cons_append, List.filterMap_eq_cons_iff] at hrest
  obtain ⟨us', a, rest, rfl, -, ha, hrest⟩ := hrest
  obtain ⟨m, rest, rfl, hm, hrest⟩ := List.filterMap_eq_append_iff.1 hrest
  rw [List.singleton_append, List.filterMap_eq_cons_iff] at hrest
  obtain ⟨m', z, vs, rfl, hm', hz, -⟩ := hrest
  refine ⟨us ++ us', a, m ++ m', z, vs, by simp, ha, ?_, hz⟩
  rw [List.filterMap_append, hm, List.filterMap_eq_nil_iff.2 hm', List.append_nil]

end Between

namespace Lexed

open Piece Parsed Text.Utf8

/-- The token that a piece is, unless statements do not see it. -/
def significant? (p : Spanned Piece) : Option (Spanned Token) :=
  (token? p).filter fun t => !t.value.isComment

/-- The significant tokens of placed pieces are found piece by piece. -/
theorem significant_ofPlaced (ps : List (Spanned Piece)) :
    significant (ofPlaced ps) = ps.filterMap significant? :=
  List.filter_filterMap

/-- A significant token is a piece of its own, at the same place. -/
theorem eq_of_significant? {p : Spanned Piece} {t : Spanned Token}
    (h : significant? p = some t) : p = ⟨.token t.value, t.span⟩ ∧ t.value.isComment = false := by
  obtain ⟨htoken, hcomment⟩ := Option.filter_eq_some_iff.1 h
  refine ⟨eq_of_token? htoken, ?_⟩
  simpa using hcomment

/-- The significant tokens of placed pieces stand one behind the other. -/
theorem increasing_significant (offset : Nat) (ps : List Piece) :
    Spanned.Increasing (significant (ofPlaced (place offset ps))) := by
  rw [significant_ofPlaced]
  refine ((apart_place offset ps).filterMap ?_).increasing
  intro p t ht
  rw [(eq_of_significant? ht).1]

/-- Placed pieces that are cut in two are the pieces that are cut in two, placed. -/
theorem place_eq_append {offset : Nat} {ps : List Piece} {before behind : List (Spanned Piece)}
    (h : place offset ps = before ++ behind) : ∃ qs rs, ps = qs ++ rs
      ∧ place offset qs = before ∧ place (offset + width (qs.flatMap chars)) rs = behind := by
  induction before generalizing offset ps with
  | nil => exact ⟨[], ps, rfl, rfl, h⟩
  | cons p before ih =>
    cases ps with
    | nil => cases h
    | cons q ps =>
      obtain ⟨hp, hrest⟩ := List.cons.inj h
      obtain ⟨qs, rs, rfl, hqs, hrs⟩ := ih hrest
      refine ⟨q :: qs, rs, rfl, ?_, ?_⟩
      · exact congr (congrArg List.cons hp) hqs
      · rw [List.flatMap_cons, width_append, ← Nat.add_assoc, hrs]

/-- The pieces from one token to another one, both of them seen by statements. -/
structure Run (ms : List Piece) (first last : Token) : Prop where
  exists_between : ∃ m, ms = .token first :: m ++ [.token last]
  first_significant : first.isComment = false
  last_significant : last.isComment = false

/-- **The tokens of a statement take a run of pieces.** -/
theorem exists_run {source : String} {before block after inner : Tokens}
    {first last : Spanned Token} (hsource : significant (of source) = before ++ (block ++ after))
    (hblock : block = first :: inner ++ [last]) :
    ∃ ps ms qs, split source.toList = ps ++ (ms ++ qs) ∧ Run ms first.value last.value
      ∧ significant (ofPlaced (place (width (ps.flatMap chars)) ms)) = block := by
  have hplaced : (place 0 (split source.toList)).filterMap significant?
      = before ++ (first :: inner ++ [last] ++ after) := by
    rw [← significant_ofPlaced, ← hblock]
    exact hsource
  obtain ⟨us, a, m, z, vs, hsplit, ha, hm, hz⟩ := exists_between hplaced
  obtain ⟨ps, rest, hps, hus, hrest⟩ := place_eq_append hsplit
  obtain ⟨ms, qs, rfl, hms, -⟩ := place_eq_append hrest
  rw [Nat.zero_add] at hms
  refine ⟨ps, ms, qs, hps, ?_, ?_⟩
  · obtain ⟨hfirst, hfirst'⟩ := eq_of_significant? ha
    obtain ⟨hlast, hlast'⟩ := eq_of_significant? hz
    refine ⟨⟨m.map (·.value), ?_⟩, hfirst', hlast'⟩
    rw [← map_value_place (width (ps.flatMap chars)) ms, hms, List.map_append, List.map_cons, hfirst,
      hlast]
    rfl
  · have hlast : [z].filterMap significant? = [last] := List.filterMap_cons_some hz
    rw [significant_ofPlaced, hms, hblock, List.filterMap_append, List.filterMap_cons_some ha, hm,
      hlast]

/-- A run takes up all bytes of its pieces. -/
theorem Run.extent_eq {ms : List Piece} {first last : Token} (h : Run ms first last)
    (offset : Nat) : Spanned.extent (significant (ofPlaced (place offset ms)))
      = ⟨offset, offset + width (ms.flatMap chars), Nat.le_add_right _ _⟩ := by
  have hincreasing := increasing_significant offset ms
  obtain ⟨⟨m, rfl⟩, hfirst, hlast⟩ := h
  have hsignificant (t : Token) (span : Span) (ht : t.isComment = false) :
      significant? ⟨.token t, span⟩ = some ⟨t, span⟩ := by
    rw [significant?, token?, Option.filter_some, ht]
    rfl
  have hhead : (place offset (.token first :: m)).filterMap significant?
      = ⟨first, ⟨offset, offset + width first.chars, Nat.le_add_right _ _⟩⟩
        :: (place (offset + width first.chars) m).filterMap significant? :=
    List.filterMap_cons_some (hsignificant first _ hfirst)
  have htail (stop : Nat) : (place stop [.token last]).filterMap significant?
      = [⟨last, ⟨stop, stop + width last.chars, Nat.le_add_right _ _⟩⟩] :=
    List.filterMap_cons_some (hsignificant last _ hlast)
  rw [significant_ofPlaced, place_append, List.filterMap_append, hhead, htail]
    at hincreasing ⊢
  -- The first one starts where the pieces do, and the last one stops where they do.
  refine Span.eq_of_bounds ?_ ?_
  · exact Spanned.extent_start hincreasing
  · refine (Spanned.extent_stop _ hincreasing).trans ?_
    simp only [List.flatMap_append, width_append, List.flatMap_singleton, chars, Nat.add_assoc]

/-! ## Errors inside of a run -/

/-- Lexical errors lie within the pieces that they are found in, and are not empty. -/
theorem bounds_of_mem_errors {offset : Nat} {ps : List Piece} (hne : ∀ p ∈ ps, p.chars ≠ [])
    {e : LexError} (h : e ∈ (ofPlaced (place offset ps)).errors) :
    offset ≤ e.span.start ∧ e.span.start < e.span.stop
      ∧ e.span.stop ≤ offset + width (ps.flatMap chars) := by
  obtain ⟨p, hp, herror⟩ := List.mem_filterMap.1 h
  obtain ⟨text, rfl, -⟩ := eq_of_error? herror
  exact ⟨le_start_of_mem_place hp, lt_of_mem_place hne hp, stop_le_of_mem_place hp⟩

/-- The errors inside of a span are those of the pieces that it covers. -/
theorem errors_filter_encloses {ps ms qs : List Piece}
    (hne : ∀ p ∈ ps ++ (ms ++ qs), p.chars ≠ []) {span : Span}
    (hstart : span.start = width (ps.flatMap chars))
    (hstop : span.stop = width (ps.flatMap chars) + width (ms.flatMap chars)) :
    (ofPlaced (place 0 (ps ++ (ms ++ qs)))).errors.filter (fun e => span.encloses e.span)
      = (ofPlaced (place (width (ps.flatMap chars)) ms)).errors := by
  -- An error is not empty, so it is not inside of the span when it only touches it.
  obtain ⟨hps, hbehind⟩ := List.forall_mem_append.1 hne
  obtain ⟨hms, hqs⟩ := List.forall_mem_append.1 hbehind
  rw [← hstart] at hstop ⊢
  have hall : (ofPlaced (place 0 (ps ++ (ms ++ qs)))).errors
      = (ofPlaced (place 0 ps)).errors ++ ((ofPlaced (place span.start ms)).errors
        ++ (ofPlaced (place span.stop qs)).errors) := by
    simp only [ofPlaced, place_append, List.filterMap_append, Nat.zero_add, hstart, hstop]
  have hbefore : (ofPlaced (place 0 ps)).errors.filter (fun e => span.encloses e.span) = [] := by
    refine List.filter_eq_nil_iff.2 fun e he => ?_
    have hbounds := bounds_of_mem_errors hps he
    rw [Span.encloses_iff]
    omega
  have hinside : (ofPlaced (place span.start ms)).errors.filter (fun e => span.encloses e.span)
      = (ofPlaced (place span.start ms)).errors := by
    refine List.filter_eq_self.2 fun e he => ?_
    have hbounds := bounds_of_mem_errors hms he
    rw [Span.encloses_iff]
    omega
  have hafter : (ofPlaced (place span.stop qs)).errors.filter (fun e => span.encloses e.span)
      = [] := by
    refine List.filter_eq_nil_iff.2 fun e he => ?_
    have hbounds := bounds_of_mem_errors hqs he
    rw [Span.encloses_iff]
    omega
  rw [hall, List.filter_append, List.filter_append, hbefore, hinside, hafter, List.nil_append,
    List.append_nil]

end Lexed

namespace Parsed

open Grammar Production Piece Lexed Text.Utf8

/-- The pieces of a source that a statement takes. -/
structure Excerpt (source : String) (p : Spanned Statement) (ps ms qs : List Piece) : Prop where
  split_eq : split source.toList = ps ++ (ms ++ qs)
  isStatement : IsStatement ((significant (ofPlaced (place 0 ms))).map (·.value)) p.value
  extent_eq : Spanned.extent (significant (ofPlaced (place 0 ms)))
    = ⟨0, width (ms.flatMap chars), Nat.zero_le _⟩
  start_eq : p.span.start = width (ps.flatMap chars)
  stop_eq : p.span.stop = width (ps.flatMap chars) + width (ms.flatMap chars)
  cut : Cut ms

/-- Every statement of a source has an excerpt: the pieces before it, its own, and those behind it. -/
theorem exists_excerpt {source : String} {p : Spanned Statement}
    (hp : p ∈ (of (Lexed.of source).tokens).statements) :
    ∃ ps ms qs, Excerpt source p ps ms qs := by
  obtain ⟨before, block, after, hsource, hstatement, hextent⟩ :=
    exists_block_of_mem (lexemes_significant source) hp
  have hspan := hextent (increasing_significant 0 (split source.toList))
  obtain ⟨year, us, t, hends, -⟩ := hstatement.exists_ends
  obtain ⟨init, lasts, rfl, hinit, hlasts⟩ := List.map_eq_append_iff.1 hends
  obtain ⟨first, inner, rfl, hfirst, -⟩ := List.map_eq_cons_iff.1 hinit
  obtain ⟨last, rfl, -⟩ := List.map_eq_singleton_iff.1 hlasts
  obtain ⟨ps, ms, qs, hsplit, hrun, hblock⟩ := exists_run hsource rfl
  rw [← hblock] at hspan hstatement
  rw [hrun.extent_eq] at hspan
  refine ⟨ps, ms, qs, hsplit, ?isStatement, ?extent_eq, ?start_eq, ?stop_eq, ?cut⟩
  case isStatement =>
    have hmoved := significant_place_add (width (ps.flatMap chars)) 0 ms
    rw [Nat.zero_add] at hmoved
    rwa [hmoved, Spanned.map_value_relocate] at hstatement
  case extent_eq => exact (hrun.extent_eq 0).trans (Span.eq_of_bounds rfl (Nat.zero_add _))
  case start_eq => rw [hspan]
  case stop_eq => rw [hspan]
  case cut =>
    -- The last token ends where the text behind it begins.
    have hcut := cut_split source.toList
    rw [hsplit] at hcut
    refine hcut.of_append_right.of_append_left fun _ => ?_
    obtain ⟨m, rfl⟩ := hrun.exists_between
    have hlast' : Cut (.token last.value :: qs) := by
      have hbehind := hcut.of_append_right
      rw [List.append_assoc] at hbehind
      exact hbehind.of_append_right
    rw [List.flatMap_append, List.flatMap_singleton]
    exact Token.seam_of_endsBefore hlast'.1.1 hlast'.1.2 _

/-- The tokens of the pieces are read as the statement, and nothing else. -/
theorem Excerpt.of_eq {source : String} {p : Spanned Statement} {ps ms qs : List Piece}
    (h : Excerpt source p ps ms qs) :
    of (ofPlaced (place 0 ms)).tokens
      = ⟨[.ok ⟨p.value, ⟨0, width (ms.flatMap chars), Nat.zero_le _⟩⟩], none⟩ := by
  have hone : statement (significant (ofPlaced (place 0 ms)) ++ [])
      = .ok (⟨p.value, Spanned.extent (significant (ofPlaced (place 0 ms)))⟩, []) :=
    statement_of_isStatement h.isStatement (increasing_significant 0 ms)
      (endsBefore_number p.value rfl (.inl rfl))
  rw [List.append_nil, h.extent_eq] at hone
  obtain ⟨year, us, hvalues⟩ := h.isStatement.exists_cons
  obtain ⟨t, ts, htokens, -⟩ := List.map_eq_cons_iff.1 hvalues
  rw [of_tokens, htokens]
  rw [htokens] at hone
  rw [read_of_ok hone, read_nil]
  rfl

end Parsed

namespace Compilation

open Parsed Piece Text.Utf8

/-- **The span of a statement holds the statement.** The text in the span of a statement that is read from
a source is read without any syntax error as this statement alone, which takes up all of it; and what could
not be read in this text is what could not be read of the source inside of the span. -/
theorem of_slice (source : String) : ∀ p ∈ (of source).parsed.statements,
    (of (p.span.slice source)).parsed.errors = []
    ∧ (of (p.span.slice source)).parsed.statements
      = [⟨p.value, ⟨0, width (p.span.slice source).toList, Nat.zero_le _⟩⟩]
    ∧ (of (p.span.slice source)).parsed.fault = none
    ∧ (of (p.span.slice source)).lexed.errors.map (LexError.relocate (Span.shift p.span.start))
      = (of source).lexed.errors.filter fun e => p.span.encloses e.span := by
  intro p hp
  rw [parsed_of] at hp
  obtain ⟨ps, ms, qs, h⟩ := exists_excerpt hp
  have hsource : source.toList
      = ps.flatMap chars ++ ms.flatMap chars ++ qs.flatMap chars := by
    rw [← flatMap_chars_split source.toList, h.split_eq, List.flatMap_append, List.flatMap_append,
      List.append_assoc]
  have hslice : p.span.slice source = String.ofList (ms.flatMap chars) :=
    Span.slice_of_append hsource h.start_eq h.stop_eq
  have hlexed : Lexed.of (p.span.slice source) = Lexed.ofPlaced (Lexed.place 0 ms) := by
    rw [hslice, Lexed.of, String.toList_ofList, split_of_cut h.cut]
    rfl
  rw [parsed_of, lexed_of, lexed_of, hlexed, h.of_eq, hslice]
  refine ⟨rfl, ?_, rfl, ?_⟩
  · simp only [String.toList_ofList]
    rfl
  · have hne := Lexed.chars_ne_nil_of_mem_cut (cut_split source.toList)
    rw [h.split_eq] at hne
    have hinside := Lexed.errors_filter_encloses hne h.start_eq h.stop_eq
    rw [← h.split_eq, ← Nat.zero_add (width (ps.flatMap chars)), Lexed.place_add,
      Lexed.ofPlaced_relocate, ← h.start_eq] at hinside
    exact hinside.symm

/-- An opening with a comment and an unreadable sign inside, between two other such signs. -/
def strewnSource : String := "€ 2020-01-02 open € assets:cash // \"note\n BRL ?"

/-- The opening, and where it is. -/
def strewnOpening : Spanned Statement := ⟨openingStatement, ⟨4, 49, by decide⟩⟩

/-- An opening with a comment and unreadable characters inside is cut out of a source and read again. -/
theorem of_slice_strewn :
    strewnOpening ∈ (of strewnSource).parsed.statements
    ∧ (of (strewnOpening.span.slice strewnSource)).parsed.errors = []
    ∧ (of (strewnOpening.span.slice strewnSource)).parsed.statements
      = [⟨strewnOpening.value,
          ⟨0, width (strewnOpening.span.slice strewnSource).toList, Nat.zero_le _⟩⟩]
    ∧ (of (strewnOpening.span.slice strewnSource)).parsed.fault = none
    ∧ (of (strewnOpening.span.slice strewnSource)).lexed.errors.map
          (LexError.relocate (Span.shift strewnOpening.span.start))
      = (of strewnSource).lexed.errors.filter fun e => strewnOpening.span.encloses e.span := by
  have hstatement : Production.statement (significant (Lexed.of strewnSource))
      = .ok (strewnOpening, []) := by
    have hsome : (Production.statement (significant (Lexed.of strewnSource))).toOption
        = some (strewnOpening, []) := by
      decide +kernel
    cases hread : Production.statement (significant (Lexed.of strewnSource)) with
    | ok r =>
      rw [hread] at hsome
      exact congrArg Except.ok (Option.some.inj hsome)
    | error e =>
      rw [hread] at hsome
      cases hsome
  have hmem : strewnOpening ∈ (of strewnSource).parsed.statements := by
    rw [parsed_of, of_tokens]
    cases htokens : significant (Lexed.of strewnSource) with
    | nil =>
      rw [htokens] at hstatement
      cases hstatement
    | cons t ts =>
      rw [htokens] at hstatement
      rw [read_of_ok hstatement]
      exact List.mem_cons_self
  exact ⟨hmem, of_slice strewnSource strewnOpening hmem⟩

end Compilation

end Daybook
