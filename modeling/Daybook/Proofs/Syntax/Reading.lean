import Daybook.Proofs.Syntax.Completeness
import Daybook.Proofs.Syntax.Faultless

/-!
One step of reading a list of tokens, and induction along its steps.

A step either reads a statement or rejects one and goes on at the next place where a statement seems to
start (`read_cons`). What holds at the end and is preserved backwards by both steps holds of every list
(`read_induction`).
-/

namespace Daybook.Parsed

open Production

section Push

variable (p : Parsed) (s : Spanned Statement) (e : ParseError)

@[simp] theorem outcomes_push (outcome : Except ParseError (Spanned Statement)) :
    (p.push outcome).outcomes = outcome :: p.outcomes := rfl

@[simp] theorem fault_push (outcome : Except ParseError (Spanned Statement)) :
    (p.push outcome).fault = p.fault := rfl

@[simp] theorem statements_push_ok : (p.push (.ok s)).statements = s :: p.statements := rfl

@[simp] theorem statements_push_error : (p.push (.error e)).statements = p.statements := rfl

@[simp] theorem errors_push_ok : (p.push (.ok s)).errors = p.errors := rfl

@[simp] theorem errors_push_error : (p.push (.error e)).errors = e :: p.errors := rfl

end Push

@[simp] theorem read_nil (stop : Nat) : read stop [] = ⟨[], none⟩ := by rw [read]

/-- A statement that is read comes first, and the tokens behind it are read on their own. -/
theorem read_of_ok {stop : Nat} {t : Spanned Token} {ts rest : Tokens} {s : Spanned Statement}
    (h : statement (t :: ts) = .ok (s, rest)) :
    read stop (t :: ts) = (read stop rest).push (.ok s) := by
  rw [read]
  split
  · next h' => rw [h] at h'; cases h'; rfl
  · next h' => rw [h] at h'; cases h'
  · next h' => rw [h] at h'; cases h'

/-- A rejection comes first, and reading goes on where the next statement may start. -/
theorem read_of_rejected {stop : Nat} {t : Spanned Token} {ts : Tokens} {r : Rejection}
    (h : statement (t :: ts) = .error (.rejected r)) :
    read stop (t :: ts) = (read stop (nextStart ts)).push (.error (r.toError stop)) := by
  rw [read]
  split
  · next h' => rw [h] at h'; cases h'
  · next h' => rw [h] at h'; cases h'; rfl
  · next h' => rw [h] at h'; cases h'

/-- **One step**: a statement is read, or it is rejected. -/
theorem read_cons (stop : Nat) {t : Spanned Token} {ts : Tokens} (h : Lexemes (t :: ts)) :
    (∃ s rest, statement (t :: ts) = .ok (s, rest)
      ∧ read stop (t :: ts) = (read stop rest).push (.ok s))
    ∨ ∃ r, statement (t :: ts) = .error (.rejected r)
      ∧ read stop (t :: ts) = (read stop (nextStart ts)).push (.error (r.toError stop)) := by
  match hstatement : statement (t :: ts) with
  | .ok (s, rest) => exact .inl ⟨s, rest, rfl, read_of_ok hstatement⟩
  | .error (.rejected r) => exact .inr ⟨r, rfl, read_of_rejected hstatement⟩
  | .error (.fault f) => exact absurd hstatement (faultless_statement h f)

/-- A statement takes tokens from the front. -/
theorem suffix_of_statement {ts rest : Tokens} {s : Spanned Statement}
    (h : statement ts = .ok (s, rest)) : rest <:+ ts := by
  obtain ⟨-, block, rfl, -⟩ := reads_of_statement h
  exact List.suffix_append block rest

/-- **Every list is reached by steps**, each of which reads a statement, or rejects one and skips to the next. -/
@[elab_as_elim]
theorem read_induction {motive : Tokens → Prop} (nil : motive [])
    (ok : ∀ t ts s rest, Lexemes (t :: ts) → statement (t :: ts) = .ok (s, rest) →
      motive rest → motive (t :: ts))
    (rejected : ∀ t ts r, Lexemes (t :: ts) → statement (t :: ts) = .error (.rejected r) →
      motive (nextStart ts) → motive (t :: ts))
    (ts : Tokens) (h : Lexemes ts) : motive ts := by
  induction hn : ts.length using Nat.strongRecOn generalizing ts with
  | _ n ih =>
    subst hn
    cases ts with
    | nil => exact nil
    | cons t ts =>
      -- Either step leaves fewer tokens; which offset the reading has plays no part.
      rcases read_cons 0 h with ⟨s, rest, hstatement, -⟩ | ⟨r, hstatement, -⟩
      · exact ok t ts s rest h hstatement
          (ih _ (length_lt_of_statement hstatement) rest
            (h.of_suffix (suffix_of_statement hstatement)) rfl)
      · have hsuffix := nextStart_suffix ts
        have hlt : (nextStart ts).length < (t :: ts).length := by
          have := hsuffix.length_le
          simp only [List.length_cons]
          omega
        exact rejected t ts r h hstatement
          (ih _ hlt _ (h.of_suffix (hsuffix.trans (List.suffix_cons t ts))) rfl)

/-- No fault ends the reading. -/
theorem fault_read (stop : Nat) {ts : Tokens} (h : Lexemes ts) : (read stop ts).fault = none := by
  refine read_induction ?nil ?ok ?rejected ts h
  case nil => rw [read_nil]
  case ok =>
    intro t ts s rest _ hstatement ih
    rw [read_of_ok hstatement, fault_push, ih]
  case rejected =>
    intro t ts r _ hstatement ih
    rw [read_of_rejected hstatement, fault_push, ih]

/-! ## Where no statement seems to start -/

/-- Skipping ends where a statement may start, or at the end. -/
theorem startsStatement_nextStart (ts : Tokens) :
    nextStart ts = [] ∨ startsStatement (nextStart ts) = true := by
  induction ts with
  | nil => exact .inl rfl
  | cons t ts ih =>
    unfold nextStart
    split
    · next h => exact .inr h
    · exact ih

/-- A statement that is read starts where one seems to start. -/
theorem startsStatement_of_ok {ts rest : Tokens} {s : Spanned Statement}
    (h : statement ts = .ok (s, rest)) : startsStatement ts = true := by
  obtain ⟨-, block, rfl, hblock, -⟩ := reads_of_statement h
  rw [Grammar.startsStatement_eq, List.map_append]
  exact hblock.beginsDate _

/-- Tokens as a text has them, without comments. -/
def Significant (ts : Tokens) : Prop :=
  ∀ t ∈ ts, t.value.WellFormed ∧ t.value.isComment = false

instance (ts : Tokens) : Decidable (Significant ts) :=
  inferInstanceAs (Decidable (∀ t ∈ ts, t.value.WellFormed ∧ t.value.isComment = false))

theorem Significant.lexemes {ts : Tokens} (h : Significant ts) : Lexemes ts :=
  fun t ht => (h t ht).1

/-- Significant tokens are read as they are, since there are no comments to leave out. -/
theorem of_eq_read {ts : Tokens} (h : Significant ts) : of ts = read (lastStop ts) ts := by
  have hfilter : ts.filter (fun t => !t.value.isComment) = ts := by
    rw [List.filter_eq_self]
    intro t ht
    rw [(h t ht).2]
    rfl
  simp only [of, hfilter]

/-- The tokens of a source that statements see. -/
def significant (l : Lexed) : Tokens :=
  l.tokens.filter fun t => !t.value.isComment

theorem of_tokens (l : Lexed) :
    of l.tokens = read (lastStop (significant l)) (significant l) := rfl

/-- The tokens of a source are well formed. -/
theorem lexemes_significant (source : String) : Lexemes (significant (Lexed.of source)) := by
  intro t ht
  exact Lexed.wellFormed_of_mem_tokens (List.mem_filter.1 ht).1

/-! ## Sample tokens -/

/-- The tokens at their places in a text that has one blank between any two of them. -/
def spread (offset : Nat) : List Token → Tokens
  | [] => []
  | t :: ts =>
    let stop := offset + Text.Utf8.width t.chars
    ⟨t, ⟨offset, stop, Nat.le_add_right _ _⟩⟩ :: spread (stop + 1) ts

/-- The number that is written with these digits. -/
def numberOf (text : List Char) (h : (Numeral.span text).1 ≠ []) : Token :=
  .number ⟨false, (Numeral.span text).1, [], h⟩

/-- `2019 - 12 -` -/
def brokenDate : List Token :=
  [numberOf ['2', '0', '1', '9'] (by decide), .separator "-", numberOf ['1', '2'] (by decide),
    .separator "-"]

/-- `2020 - 01 - 02 open assets : cash BRL` -/
def openingTokens : List Token :=
  [numberOf ['2', '0', '2', '0'] (by decide), .separator "-", numberOf ['0', '1'] (by decide),
    .separator "-", numberOf ['0', '2'] (by decide), .identifier "open",
    .identifier "assets", .separator ":", .identifier "cash", .currency "BRL"]

end Daybook.Parsed
