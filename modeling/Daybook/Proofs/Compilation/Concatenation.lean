import Daybook.Compilation
import Daybook.Proofs.Ledger.Numbering
import Daybook.Proofs.Syntax.Bytes
import Daybook.Proofs.Syntax.Placing
import Daybook.Proofs.Syntax.Relocation

/-!
Two sources, one below the other.

A source that is put below another one is read there as if it stood alone, only further down, unless the
one above leaves a quote open that the one below would close (`Lexed.of_below`). If it begins with what
looks like a statement, its statements are those that it has alone, even when the source above breaks off
inside of one; and they are numbered from where the numbers of the source above end
(`Compilation.of_append_newline`).
-/

namespace Daybook

namespace Lexed

open Piece Text.Utf8

/-- Where no error has the byte of a quote, no unreadable run has a quote. -/
theorem not_mem_of_errors {source : String}
    (h : ∀ e ∈ (of source).errors, 34 ∉ e.span.bytes source) :
    ∀ p ∈ split source.toList, p.isUnreadable = true → '"' ∉ p.chars := by
  intro p hp hunreadable hquote
  obtain ⟨span, hplaced⟩ := exists_mem_place_of_mem 0 hp
  cases p with
  | blank text => cases hunreadable
  | token t => cases hunreadable
  | unreadable text =>
    obtain ⟨before, after, hsource, hstart, hstop⟩ := exists_middle_of_mem_place hplaced
    have herror : ⟨span, String.ofList text⟩ ∈ (of source).errors :=
      List.mem_filterMap.2 ⟨_, hplaced, rfl⟩
    refine h _ herror ?_
    rw [Span.bytes_of_append hsource hstart hstop]
    exact List.mem_flatMap.2 ⟨'"', hquote, by decide⟩

/-- **A source below another one is read as if it stood alone.** -/
theorem of_below {above : String} (below : String)
    (hquote : ∀ e ∈ (of above).errors, 34 ∉ e.span.bytes above) :
    of (above ++ "\n" ++ below)
      = (of above).append
          ((of below).relocate (Span.shift (width above.toList + 1))) := by
  have hread := readAt_append_newline (cut_split above.toList) (not_mem_of_errors hquote) 0
    below.toList
  rw [flatMap_chars_split, Nat.zero_add, ← Nat.zero_add (width above.toList + 1),
    readAt_add] at hread
  have hsource : (above ++ "\n" ++ below).toList = above.toList ++ '\n' :: below.toList := by
    simp
  rw [of_eq_readAt, hsource, hread]
  rfl

end Lexed

namespace Parsed

open Production Grammar

/-- The statements of a source are read as if nothing stood above them. -/
theorem statements_append_shift {l m : Lexed} (hl : Lexemes (significant l))
    (hm : Lexemes (significant m)) (hstart : startsStatement (significant m) = true) (n : Nat) :
    (of (l.append (m.relocate (Span.shift n))).tokens).statements
      = (of l.tokens).statements
        ++ (of m.tokens).statements.map (Spanned.relocate (Span.shift n)) := by
  have hne : significant m ≠ [] := by
    intro hnil
    rw [hnil] at hstart
    cases hstart
  have hsplit : significant (l.append (m.relocate (Span.shift n)))
      = significant l ++ (significant m).map (Spanned.relocate (Span.shift n)) := by
    rw [← significant_relocate]
    exact List.filter_append _ _
  have hstart' : startsStatement ((significant m).map (Spanned.relocate (Span.shift n))) = true := by
    rw [startsStatement_relocate]
    exact hstart
  have hstop : lastStop (significant l ++ (significant m).map (Spanned.relocate (Span.shift n)))
      = lastStop (significant m) + n := by
    rw [lastStop_append (by simpa using hne), lastStop_shift n hne]
  -- The end of the input is where the source below ends, and matters to errors only.
  have hread := (read_append (lastStop (significant m) + n) (lastStop (significant l)) hl
    (lexemes_relocate hm) hstart').1
  have hmoved : read (lastStop (significant m) + n)
        ((significant m).map (Spanned.relocate (Span.shift n)))
      = (read (lastStop (significant m)) (significant m)).relocate (Span.shift n) :=
    read_relocate (Span.preservesUnion_shift n) rfl hm
  rw [hmoved, statements_relocate] at hread
  rw [of_tokens, of_tokens, of_tokens, hsplit, hstop, hread]

end Parsed

namespace Compilation

open Parsed Text.Utf8

/-- Compiling starts from the bytes of a source, but its tokens are those of its characters. -/
theorem lexed_of (source : String) : (of source).lexed = Lexed.of source :=
  Lexed.ofBytes_encode source

/-- The statements of a compilation are read from the tokens of the characters. -/
theorem parsed_of (source : String) :
    (of source).parsed = Parsed.of (Lexed.of source).tokens := by
  rw [← lexed_of]
  rfl

/-- How many numbers are in use: one for each opening, each asserted balance, each entry, and each
transaction that has entries. -/
def numbers (c : Compilation) : Nat :=
  c.ledger.openings.length + c.ledger.assertions.length + c.ledger.entries.length
    + c.parsed.statements.countP (·.value.isTransaction)

/-- The numbers in use are those that the statements take, though they are counted in the ledger. -/
theorem numbers_of (source : String) :
    (of source).numbers = Ledger.numbers (Parsed.of (Lexed.of source).tokens).statements := by
  rw [Ledger.numbers_eq 1, ← parsed_of]
  rfl

/-- **Compiling two sources, one below the other, is compiling each of them.** If the source above leaves
no quote in what could not be read, and the one below begins with what looks like a statement, everything
in the ledger is what it is for the source above, followed by what it is for the source below, numbered
and placed behind it; and so are the lexical errors. -/
theorem of_append_newline (above below : String)
    (hquote : ∀ e ∈ (of above).lexed.errors, 34 ∉ e.span.bytes above)
    (hstart : startsStatement (significant (of below).lexed) = true) :
    (of (above ++ "\n" ++ below)).ledger
        = (of above).ledger.append
            ((of below).ledger.relocate (of above).numbers (Span.shift (width above.toList + 1)))
      ∧ (of (above ++ "\n" ++ below)).lexed.errors
        = (of above).lexed.errors
          ++ (of below).lexed.errors.map
              (LexError.relocate (Span.shift (width above.toList + 1))) := by
  have hledger (source : String) :
      (of source).ledger = Ledger.build (Parsed.of (Lexed.of source).tokens).statements := by
    rw [← parsed_of]
    rfl
  rw [lexed_of] at hquote hstart
  have hread := Lexed.of_below below hquote
  have hstatements := statements_append_shift (lexemes_significant above)
    (lexemes_significant below) hstart (width above.toList + 1)
  refine ⟨?_, ?_⟩
  · rw [hledger, hledger, hledger, hread, hstatements, Ledger.build_append, numbers_of]
  · rw [lexed_of, lexed_of, lexed_of, hread]
    rfl

/-- A transaction, a sign that begins no token, and a date that breaks off. -/
def brokenSource : String :=
  "2019-12-01 transaction \"rent\"\n< 10 BRL assets:bank\n> 10 BRL equity:own\n€ 2019-12-"

/-- What breaks off above goes on below, but the statement below is not lost, and has the fourth number. -/
theorem of_append_newline_broken :
    (of brokenSource).numbers = 3
    ∧ (of brokenSource).lexed.errors = [⟨⟨71, 74, by decide⟩, "€"⟩]
    ∧ (∀ e ∈ (of brokenSource).lexed.errors, 34 ∉ e.span.bytes brokenSource)
    ∧ startsStatement (significant (of "2020-01-02 open assets:cash BRL").lexed) = true
    ∧ (of (brokenSource ++ "\n" ++ "2020-01-02 open assets:cash BRL")).ledger
      = (of brokenSource).ledger.append
          ((of "2020-01-02 open assets:cash BRL").ledger.relocate (of brokenSource).numbers
            (Span.shift (width brokenSource.toList + 1)))
    ∧ (of (brokenSource ++ "\n" ++ "2020-01-02 open assets:cash BRL")).lexed.errors
      = (of brokenSource).lexed.errors
        ++ (of "2020-01-02 open assets:cash BRL").lexed.errors.map
            (LexError.relocate (Span.shift (width brokenSource.toList + 1))) := by
  have hnumbers : (of brokenSource).numbers = 3 := by
    rw [numbers_of]
    decide +kernel
  have herrors : (of brokenSource).lexed.errors = [⟨⟨71, 74, by decide⟩, "€"⟩] := by
    rw [lexed_of]
    decide +kernel
  have hquote : ∀ e ∈ (of brokenSource).lexed.errors, 34 ∉ e.span.bytes brokenSource := by
    rw [herrors]
    simp only [List.forall_mem_singleton]
    decide +kernel
  have hstart : startsStatement (significant (of "2020-01-02 open assets:cash BRL").lexed)
      = true := by
    rw [lexed_of]
    decide +kernel
  exact ⟨hnumbers, herrors, hquote, hstart,
    of_append_newline brokenSource "2020-01-02 open assets:cash BRL" hquote hstart⟩

end Compilation

end Daybook
