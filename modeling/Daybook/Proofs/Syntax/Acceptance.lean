import Daybook.Proofs.Numeric.Numeral
import Daybook.Proofs.Syntax.Reading

/-!
Reading accepts the sequences of statements, and nothing else.

A list of tokens is read without an error exactly if it is a sequence of statements of the grammar. The
statements read are then those of the sequence, and there is no other way to cut the tokens into
statements. The choices of the productions never take a token that belongs to the next statement,
because a statement begins with a number and no statement goes on with one (`endsBefore_number`).
-/

namespace Daybook.Parsed

open Grammar Production

/-- No statement goes on with a number, or at the end of the tokens. -/
theorem endsBefore_number (s : Statement) {rest : Tokens} {values : List Token}
    (hrest : rest.map (·.value) = values)
    (hvalues : values = [] ∨ ∃ year us, values = .number year :: us) : EndsBefore s rest := by
  have hnext : nextIs ":" rest = false ∧ nextIsMovement rest = false := by
    rcases hvalues with rfl | ⟨year, us, rfl⟩
    · obtain rfl := List.map_eq_nil_iff.1 hrest
      exact ⟨rfl, rfl⟩
    · obtain ⟨t, rest, rfl, ht, -⟩ := List.map_eq_cons_iff.1 hrest
      simp only [nextIs, nextIsMovement, ht]
      exact ⟨rfl, rfl⟩
  cases s with
  | opening => trivial
  | assertion => trivial
  | transaction => exact hnext

/-- A sequence of statements is empty or begins with the number of a year. -/
theorem isSequence_head {ts : List Token} {pieces : List (List Token)} {ss : List Statement}
    (h : IsSequence ts pieces ss) : ts = [] ∨ ∃ year us, ts = .number year :: us := by
  obtain ⟨rfl, hstatements⟩ := h
  cases hstatements with
  | nil => exact .inl rfl
  | @cons piece _ pieces _ hfirst _ =>
    obtain ⟨year, us, rfl⟩ := hfirst.exists_cons
    exact .inr ⟨year, us ++ pieces.flatten, rfl⟩

/-- The first piece of a sequence is what the production of statements takes. -/
theorem statement_of_isSequence {ts : Tokens} {piece : List Token} {pieces : List (List Token)}
    {s : Statement} {ss : List Statement}
    (h : IsSequence (ts.map (·.value)) (piece :: pieces) (s :: ss)) :
    ∃ span rest, statement ts = .ok (⟨s, span⟩, rest)
      ∧ piece ++ rest.map (·.value) = ts.map (·.value)
      ∧ IsSequence (rest.map (·.value)) pieces ss := by
  obtain ⟨hflatten, hstatements⟩ := h
  obtain ⟨hfirst, hothers⟩ := List.forall₂_cons.1 hstatements
  obtain ⟨block, rest, rfl, rfl, hrest⟩ := List.map_eq_append_iff.1 hflatten.symm
  have hsequence : IsSequence (rest.map (·.value)) pieces ss := ⟨hrest.symm, hothers⟩
  obtain ⟨span, hspan⟩ := accepts_of_isStatement hfirst
  exact ⟨span, rest, hspan rest (endsBefore_number s rfl (isSequence_head hsequence)),
    (List.map_append).symm, hsequence⟩

/-- A sequence of statements is read, without an error. -/
theorem read_of_isSequence (stop : Nat) {ts : Tokens} {pieces : List (List Token)}
    {ss : List Statement} (h : IsSequence (ts.map (·.value)) pieces ss) :
    (read stop ts).errors = [] ∧ (read stop ts).statements.map (·.value) = ss := by
  induction pieces generalizing ts ss with
  | nil =>
    obtain ⟨hflatten, hstatements⟩ := h
    cases hstatements
    obtain rfl := List.map_eq_nil_iff.1 hflatten.symm
    rw [read_nil]
    exact ⟨rfl, rfl⟩
  | cons piece pieces ih =>
    obtain ⟨hflatten, hstatements⟩ := id h
    cases hstatements with
    | @cons _ s _ ss hfirst _ =>
    obtain ⟨span, rest, hstatement, -, hsequence⟩ := statement_of_isSequence h
    obtain ⟨herrors, hvalues⟩ := ih hsequence
    cases ts with
    | nil => cases hstatement
    | cons t ts =>
      rw [read_of_ok hstatement, errors_push_ok, statements_push_ok, List.map_cons, hvalues]
      exact ⟨herrors, rfl⟩

/-- What is read without an error is a sequence of statements. -/
theorem isSequence_of_read (stop : Nat) {ts : Tokens} (h : Lexemes ts)
    (herrors : (read stop ts).errors = []) :
    ∃ pieces, IsSequence (ts.map (·.value)) pieces
      ((read stop ts).statements.map (·.value)) := by
  revert herrors
  refine read_induction ?nil ?ok ?rejected ts h
  case nil =>
    intro _
    rw [read_nil]
    exact ⟨[], rfl, .nil⟩
  case ok =>
    intro t ts s rest _ hstatement ih herrors
    rw [read_of_ok hstatement] at herrors ⊢
    obtain ⟨pieces, hflatten, hstatements⟩ := ih herrors
    obtain ⟨-, block, hts, hblock, -⟩ := reads_of_statement hstatement
    refine ⟨block.map (·.value) :: pieces, ?_, ?_⟩
    · rw [hts, List.flatten_cons, List.map_append, hflatten]
    · rw [statements_push_ok, List.map_cons]
      exact .cons hblock hstatements
  case rejected =>
    intro t ts r _ hstatement _ herrors
    rw [read_of_rejected hstatement, errors_push_error] at herrors
    cases herrors

/-- The grammar is unambiguous. -/
theorem isSequence_unique {ts : Tokens} {pieces pieces' : List (List Token)}
    {ss ss' : List Statement} (h : IsSequence (ts.map (·.value)) pieces ss)
    (h' : IsSequence (ts.map (·.value)) pieces' ss') : pieces = pieces' := by
  induction pieces generalizing ts ss pieces' ss' with
  | nil =>
    obtain rfl := List.map_eq_nil_iff.1 h.flatten_eq.symm
    obtain ⟨hflatten', hstatements'⟩ := h'
    cases hstatements' with
    | nil => rfl
    | cons hfirst _ =>
      obtain ⟨year, us, rfl⟩ := hfirst.exists_cons
      cases hflatten'
  | cons piece pieces ih =>
    obtain ⟨-, hstatements⟩ := id h
    cases hstatements with
    | cons hfirst _ =>
    obtain ⟨span, rest, hstatement, happend, hsequence⟩ := statement_of_isSequence h
    obtain ⟨hflatten', hstatements'⟩ := id h'
    cases hstatements' with
    | nil =>
      obtain rfl := List.map_eq_nil_iff.1 hflatten'.symm
      cases hstatement
    | cons _ _ =>
      obtain ⟨span', rest', hstatement', happend', hsequence'⟩ := statement_of_isSequence h'
      -- Both ways take the statement that the production takes, so they leave the same rest.
      rw [hstatement] at hstatement'
      cases hstatement'
      rw [← happend'] at happend
      rw [List.append_cancel_right happend, ih hsequence hsequence']

/-- **Exactly the sequences of statements are accepted.** Tokens of a text are read without an error
if and only if they are a sequence of statements of the grammar; there is then one way only to cut them
into statements, and what is read are the meanings of these in order. -/
theorem errors_eq_nil_iff_isSequence {ts : Tokens} (h : Significant ts) :
    (of ts).fault = none
    ∧ ((of ts).errors = [] ↔ ∃ pieces ss, IsSequence (ts.map (·.value)) pieces ss)
    ∧ ∀ pieces ss, IsSequence (ts.map (·.value)) pieces ss →
      (of ts).statements.map (·.value) = ss
      ∧ ∀ pieces' ss', IsSequence (ts.map (·.value)) pieces' ss' → pieces' = pieces ∧ ss' = ss := by
  rw [of_eq_read h]
  refine ⟨fault_read _ h.lexemes, ⟨?_, ?_⟩, ?_⟩
  · intro herrors
    obtain ⟨pieces, hsequence⟩ := isSequence_of_read _ h.lexemes herrors
    exact ⟨pieces, _, hsequence⟩
  · rintro ⟨pieces, ss, hsequence⟩
    exact (read_of_isSequence _ hsequence).1
  · intro pieces ss hsequence
    refine ⟨(read_of_isSequence _ hsequence).2, ?_⟩
    intro pieces' ss' hsequence'
    refine ⟨isSequence_unique hsequence' hsequence, ?_⟩
    rw [← (read_of_isSequence (lastStop ts) hsequence').2,
      ← (read_of_isSequence (lastStop ts) hsequence).2]

/-- The day `2020-01-02`. -/
def sampleDay : Date := ⟨2020, 1, 2, by decide, by decide, by decide⟩

/-- The account `assets:cash`. -/
def cash : Account := ⟨.assets, ["cash"], by decide, by decide, by decide⟩

/-- The currency `BRL`. -/
def brl : Currency := ⟨"BRL", by decide⟩

/-- What the sample tokens mean. -/
def openingStatement : Statement := .opening sampleDay cash brl

/-- The tokens of an opening are a sequence of one statement. -/
theorem isSequence_opening :
    IsSequence ((spread 0 openingTokens).map (·.value)) [openingTokens] [openingStatement] := by
  have hnatural (whole : Numeral) (hne : whole ≠ []) :
      (Decimal.mk false whole [] hne).natural? = some (Numeral.readDigits whole) := by
    rw [← Numeral.read_eq]
    rfl
  have hdate : IsDate (openingTokens.take 5) sampleDay :=
    .mk (hnatural _ _) (hnatural _ _) (hnatural _ _) (by decide)
  have haccount : IsAccount [.identifier "assets", .separator ":", .identifier "cash"] cash :=
    @IsAccount.mk _ cash (.cons .nil)
  have hbody : IsBody sampleDay (openingTokens.drop 5) openingStatement :=
    @IsBody.opening sampleDay _ cash brl haccount
  exact ⟨rfl, .cons (.bare hdate hbody) .nil⟩

/-- So they are read without error, as this statement. -/
theorem errors_eq_nil_opening :
    Significant (spread 0 openingTokens) ∧ (of (spread 0 openingTokens)).errors = []
    ∧ (of (spread 0 openingTokens)).statements.map (·.value) = [openingStatement] := by
  have h : Significant (spread 0 openingTokens) := by decide
  obtain ⟨-, hiff, hmeaning⟩ := errors_eq_nil_iff_isSequence h
  exact ⟨h, hiff.2 ⟨_, _, isSequence_opening⟩, (hmeaning _ _ isSequence_opening).1⟩

end Daybook.Parsed
