import Daybook.Proofs.Account.Path
import Daybook.Proofs.Calendar.Iso
import Daybook.Proofs.Compilation.Concatenation
import Daybook.Proofs.Ledger.Provenance
import Daybook.Proofs.Money.Reading
import Daybook.Proofs.Source.Location
import Daybook.Proofs.Syntax.Unreadable
import Daybook.Proofs.Syntax.Wording

/-!
Notices in rows.

A notice has a headline and, below it, an excerpt of the source and its details. All of these lines are made
of words, of numbers and of quoted text, none of which goes over a line end: unreadable runs hold no white
space, and what a ledger holds is spelled with letters and digits. There is one exception. A string that
stands where another token was wanted is shown as it is, and the headline goes on wherever the string does
(`Diagnostic.IsTorn`). Main statement: `Compilation.rows_of_notices`.
-/

namespace Daybook

open Text

/-! ## Notices -/

namespace Notice

variable {n : Notice}

/-- A headline goes on where one of its parts does. -/
theorem newline_mem_headline_iff : '\n' ∈ n.headline.toList ↔ '\n' ∈ n.message.toList
    ∨ (∃ e, n.expected = some e ∧ '\n' ∈ e.toList) ∨ ∃ f, n.found = some f ∧ '\n' ∈ f.toList := by
  have hfront : '\n' ∉ "error: ".toList := by decide
  rw [headline]
  simp only [String.toList_append, List.mem_append, hfront, false_or, or_assoc]
  refine or_congr_right (or_congr ?_ ?_)
  · cases n.expected with
    | none => simp
    | some e => simp
  · cases n.found with
    | none => simp
    | some f => simp

/-- The line with the details. -/
theorem detailLines_some {gutter details : String} (h : details ≠ "") :
    detailLines gutter (some details) = [gutter ++ " = " ++ details] := by
  rw [detailLines, if_neg]
  rwa [String.isEmpty_iff]

/-- The rows of a notice about a span. -/
theorem rows_of_span {source sourceName : String} {span : Span} (hspan : n.span = some span)
    (hname : '\n' ∉ sourceName.toList) : rows (n.render source sourceName) = rows n.headline
      ++ excerpt sourceName (Location.of source span)
      ++ (detailLines (Text.spaces (toString (Location.of source span).line).length)
        n.details).flatMap rows := by
  have harrow : '\n' ∉ ((Location.of source span).arrow sourceName).toList := by
    rw [← List.count_eq_zero, Location.count_arrow, List.count_eq_zero]
    exact hname
  rw [Location.rows_render source sourceName hspan, rows_of_not_mem harrow, Location.excerpt_of]
  simp only [List.append_assoc, List.cons_append, List.nil_append]

/-- The rows of a notice about a ledger as a whole. -/
theorem rows_of_none {source sourceName : String} (hspan : n.span = none) :
    rows (n.render source sourceName) = rows n.headline ++ (detailLines " " n.details).flatMap rows := by
  rw [render, rows_intercalate, lines, hspan]
  · exact List.flatMap_cons
  · rw [lines, hspan]
    exact List.cons_ne_nil _ _

end Notice

/-! ## Texts of a ledger -/

/-- An amount of money is written on one line. -/
theorem Money.newline_not_mem_text (m : Money) : '\n' ∉ m.text.toList :=
  newline_not_mem_append
    (newline_not_mem_append (Amount.isWord_text m.amount).newline_not_mem (by decide))
    m.currency.isWord_code.newline_not_mem

/-! ## Findings -/

namespace Finding

/-- The note on currencies is on one line, since codes are words. -/
theorem newline_not_mem_currencyNote (cs : List Currency) : '\n' ∉ (currencyNote cs).toList := by
  have hcodes : '\n' ∉ (String.intercalate ", " (cs.map (·.code))).toList := by
    refine newline_not_mem_intercalate (by decide) ?_
    intro code hcode
    obtain ⟨c, -, rfl⟩ := List.mem_map.1 hcode
    exact c.isWord_code.newline_not_mem
  unfold currencyNote
  split
  · decide
  · exact newline_not_mem_append (newline_not_mem_append (by decide) hcodes) (by decide)

variable (f : Finding)

/-- The message of a finding is one line. It is a fixed text for each check. -/
theorem newline_not_mem_message : '\n' ∉ f.message.toList := by
  cases f with
  | totals => exact (by decide : '\n' ∉ "Budget does not balance".toList)
  | transaction => exact (by decide : '\n' ∉ "Transaction does not balance".toList)
  | balance => exact (by decide : '\n' ∉ "Balance statement does not match".toList)

/-- The details of a finding are one line, whatever accounts, dates, amounts and currencies they name. -/
theorem newline_not_mem_details : '\n' ∉ f.details.toList := by
  cases f with
  | totals excess currencies =>
    exact newline_not_mem_append (by decide +kernel) (newline_not_mem_currencyNote currencies)
  | transaction span excess currencies =>
    exact newline_not_mem_append (by decide +kernel) (newline_not_mem_currencyNote currencies)
  | balance assertion actual currencies =>
    refine newline_not_mem_append ?_ (newline_not_mem_currencyNote currencies)
    refine newline_not_mem_append ?_ (by decide +kernel)
    refine newline_not_mem_append ?_ assertion.date.isWord_iso.newline_not_mem
    refine newline_not_mem_append ?_ (by decide +kernel)
    exact newline_not_mem_append (by decide) assertion.account.isWord_path.newline_not_mem

/-- What a finding says was found is one line. -/
theorem newline_not_mem_found : '\n' ∉ f.found.toList := by
  cases f with
  | totals excess currencies => exact (Amount.isWord_text excess).newline_not_mem
  | transaction span excess currencies => exact (Amount.isWord_text excess).newline_not_mem
  | balance assertion actual currencies =>
    have hactual := newline_not_mem_append (Amount.isWord_text actual).newline_not_mem (t := " ") (by decide)
    exact newline_not_mem_append hactual assertion.amount.currency.isWord_code.newline_not_mem

/-- What a finding says was expected is one line. -/
theorem newline_not_mem_expected : '\n' ∉ f.expected.toList := by
  cases f with
  | balance assertion actual currencies => exact assertion.amount.newline_not_mem_text
  | _ => exact (by decide : '\n' ∉ "0".toList)

/-- The headline of a finding is one line, as its parts are. -/
theorem newline_not_mem_headline : '\n' ∉ f.notice.headline.toList := by
  rw [Notice.newline_mem_headline_iff]
  rintro (h | ⟨_, ⟨⟩, h⟩ | ⟨_, ⟨⟩, h⟩)
  · exact f.newline_not_mem_message h
  · exact f.newline_not_mem_expected h
  · exact f.newline_not_mem_found h

/-- Every finding has details. -/
theorem details_ne : f.details ≠ "" := by
  have happend {s : String} (h : s ≠ "") (t : String) : s ++ t ≠ "" := fun hempty =>
    h (String.append_eq_empty_iff.1 hempty).1
  cases f with
  | totals excess currencies => exact happend (by decide +kernel) _
  | transaction span excess currencies => exact happend (by decide +kernel) _
  | balance assertion actual currencies =>
    exact happend (happend (happend (happend (happend (by decide +kernel) _) _) _) _) _

end Finding

/-! ## Diagnostics -/

namespace Diagnostic

/-- Whether the diagnostic shows a string of the source that goes over a line end. -/
def IsTorn (c : Compilation) (d : Diagnostic) : Prop :=
  ∃ found, d.notice.found = some found ∧ IsTornString c.lexed.tokens d.span found

/-- A diagnostic over a string that goes over a line end has the line end in its headline. -/
theorem newline_mem_headline_of_isTorn {c : Compilation} {d : Diagnostic} (h : d.IsTorn c) :
    '\n' ∈ d.notice.headline.toList := by
  obtain ⟨found, hfound, content, hnewline, rfl, -⟩ := h
  refine Notice.newline_mem_headline_iff.2 (.inr (.inr ⟨_, hfound, ?_⟩))
  have htext : '\n' ∈ (Token.string content).text.toList := by
    rw [Token.text, String.toList_ofList]
    exact List.mem_cons_of_mem _ (List.mem_append_left _ hnewline)
  rw [Token.describe, String.toList_append]
  exact List.mem_append_right _ htext

end Diagnostic

namespace Compilation

variable {source : String}

/-- An unreadable run is shown without newlines. -/
theorem newline_not_mem_lexical {e : LexError} (h : e ∈ (of source).lexed.errors) :
    '\n' ∉ e.notice.headline.toList := by
  rw [Notice.newline_mem_headline_iff]
  rintro (hmessage | ⟨_, ⟨⟩, hexpected⟩ | ⟨_, ⟨⟩, hfound⟩)
  · have hplain : '\n' ∉ e.message.toList := by
      unfold LexError.message
      split
      · decide
      · exact newline_not_mem_append (by decide) (newline_not_mem_quoted _)
    exact hplain hmessage
  · have hplain : '\n' ∉ e.expected.toList := by
      unfold LexError.expected
      split
      · decide
      · decide +kernel
    exact hplain hexpected
  · have hbyte : Location.newline ∈ e.span.bytes source := by
      rw [Lexed.bytes_of_mem_errors h]
      exact newline_mem_encode_iff.2 hfound
    exact Lexed.not_blank_of_mem_errors h _ hbyte (by decide)

/-- An error of reading is shown without newlines, unless it shows a string that goes over a line end. -/
theorem isTorn_of_newline_mem {e : ParseError} (h : e ∈ (of source).parsed.errors)
    (hnewline : '\n' ∈ e.notice.headline.toList) : (Diagnostic.syntactic e).IsTorn (of source) := by
  rw [parsed_of, Parsed.of_tokens] at h
  obtain ⟨hplain, hfound⟩ := Parsed.legible_of_mem_errors (Parsed.lexemes_significant source) h
  rw [Notice.newline_mem_headline_iff] at hnewline
  rcases hnewline with hmessage | ⟨_, ⟨⟩, hexpected⟩ | ⟨_, ⟨⟩, hmem⟩
  · exact absurd hmessage (Complaint.newline_not_mem_message hplain)
  · exact absurd hexpected e.complaint.newline_not_mem_expected
  · rcases hfound with hnot | htorn
    · exact absurd hmem hnot
    · refine ⟨e.found, rfl, ?_⟩
      rw [lexed_of]
      exact htorn.mono (List.filter_subset_self _)

/-- **A headline goes over a line end if and only if it shows a string that does.** -/
theorem newline_mem_headline_iff {d : Diagnostic} (h : d ∈ (of source).diagnostics) :
    '\n' ∈ d.notice.headline.toList ↔ d.IsTorn (of source) := by
  refine ⟨?_, Diagnostic.newline_mem_headline_of_isTorn⟩
  intro hnewline
  rw [diagnostics, List.mem_mergeSort] at h
  rcases List.mem_append.1 h with hlexical | hsyntactic
  · obtain ⟨e, he, rfl⟩ := List.mem_map.1 hlexical
    exact absurd hnewline (newline_not_mem_lexical he)
  · obtain ⟨e, he, rfl⟩ := List.mem_map.1 hsyntactic
    exact isTorn_of_newline_mem he hnewline

end Compilation

/-! ## What is shown -/

/-- How a diagnostic is shown: in five rows unless it is torn, and then in more. -/
structure Diagnostic.IsShown (source sourceName : String) (c : Compilation) (d : Diagnostic) : Prop where
  rows_eq : rows (d.notice.render source sourceName)
    = rows d.notice.headline ++ Notice.excerpt sourceName (Location.of source d.span)
  headline : rows d.notice.headline = [d.notice.headline] ↔ ¬d.IsTorn c
  five : (rows (d.notice.render source sourceName)).length = 5 ↔ ¬d.IsTorn c

/-- How a finding is shown: in two rows, or in six if it has a place. -/
structure Finding.IsShown (source sourceName : String) (f : Finding) : Prop where
  whole : f.span? = none → rows (f.notice.render source sourceName)
    = [f.notice.headline, "  = " ++ f.details]
  placed : ∀ span, f.span? = some span → rows (f.notice.render source sourceName)
    = f.notice.headline :: Notice.excerpt sourceName (Location.of source span)
      ++ [Text.spaces (toString (Location.of source span).line).length ++ " = " ++ f.details]

/-- Every finding is shown in as many lines as it should be. -/
theorem Finding.isShown {sourceName : String} (h : '\n' ∉ sourceName.toList) (source : String)
    (f : Finding) : f.IsShown source sourceName := by
  have hheadline := rows_of_not_mem f.newline_not_mem_headline
  have hdetails {gutter : String} (hgutter : '\n' ∉ gutter.toList) :
      (Notice.detailLines gutter f.notice.details).flatMap rows = [gutter ++ " = " ++ f.details] := by
    rw [Finding.notice, Notice.detailLines_some f.details_ne, List.flatMap_singleton]
    have hmark := newline_not_mem_append hgutter (t := " = ") (by decide)
    exact rows_of_not_mem (newline_not_mem_append hmark f.newline_not_mem_details)
  constructor
  · intro hspan
    rw [Notice.rows_of_none hspan, hheadline, hdetails (by decide)]
    rfl
  · intro span hspan
    rw [Notice.rows_of_span hspan h, hheadline, hdetails (newline_not_mem_spaces _)]
    rfl

namespace Compilation

/-- So is every diagnostic of a source, if it is not torn. -/
theorem isShown_of_mem_diagnostics {source sourceName : String} (h : '\n' ∉ sourceName.toList)
    {d : Diagnostic} (hd : d ∈ (of source).diagnostics) : d.IsShown source sourceName (of source) := by
  have hspan : d.notice.span = some d.span := by
    cases d with
    | lexical e => rfl
    | syntactic e => rfl
  have hdetails : d.notice.details = none := by
    cases d with
    | lexical e => rfl
    | syntactic e => rfl
  have hrows : rows (d.notice.render source sourceName)
      = rows d.notice.headline ++ Notice.excerpt sourceName (Location.of source d.span) := by
    rw [Notice.rows_of_span hspan h, hdetails]
    exact List.append_nil _
  have htorn := newline_mem_headline_iff hd
  refine ⟨hrows, ?headline, ?five⟩
  case headline =>
    rw [← htorn]
    refine ⟨?_, rows_of_not_mem⟩
    intro hself
    have hmem : d.notice.headline ∈ rows d.notice.headline := by
      rw [hself]
      exact List.mem_singleton_self _
    exact newline_not_mem_of_mem_rows hmem
  case five =>
    have hexcerpt : (Notice.excerpt sourceName (Location.of source d.span)).length = 4 := by
      rw [Location.excerpt_of]
      rfl
    rw [hrows, List.length_append, length_rows, hexcerpt, ← htorn, ← List.count_eq_zero]
    omega

/-- **Notices keep their layout.** Every diagnostic of a source has a headline in one row, and four rows
below it, unless it shows a string that goes over a line end: then the headline does as well. Whatever a
validation of the ledger finds has its headline, the same four rows if it is found at a place, and a row of
details. -/
theorem rows_of_notices {sourceName : String} (h : '\n' ∉ sourceName.toList) (source : String) :
    (∀ d ∈ (of source).diagnostics, d.IsShown source sourceName (of source))
      ∧ ∀ names failFast v, (of source).ledger.validate names failFast = .ok v →
        ∀ f ∈ v.findings, f.IsShown source sourceName := by
  constructor
  · intro d hd
    exact isShown_of_mem_diagnostics h hd
  · intro _ _ _ _ f _
    exact f.isShown h source

/-- A word is shown in five rows. -/
theorem rows_of_notices_word : '\n' ∉ "book".toList
    ∧ ((∀ d ∈ (of "x").diagnostics, d.IsShown "x" "book" (of "x"))
      ∧ ∀ names failFast v, (of "x").ledger.validate names failFast = .ok v →
        ∀ f ∈ v.findings, f.IsShown "x" "book")
    ∧ (of "x").diagnostics.map (fun d => rows (d.notice.render "x" "book"))
      = [["error: expected a date (YYYY-MM-DD), expected `a date (YYYY-MM-DD)`, found identifier 'x'",
        " --> book:1:1", "  |", "1 | x", "  | ^"]] := by
  have h : '\n' ∉ "book".toList := by decide
  exact ⟨h, rows_of_notices h "x", by decide +kernel⟩

/-- A quoted line end is shown as it is. -/
theorem not_five_rows_of_quotedNewline : ¬∀ source sourceName : String, '\n' ∉ sourceName.toList →
    ∀ d ∈ (of source).diagnostics, (rows (d.notice.render source sourceName)).length = 5 := by
  intro h
  have hall := h "\"\n\"" "book" (by decide)
  have hlengths : (of "\"\n\"").diagnostics.map
      (fun d => (rows (d.notice.render "\"\n\"" "book")).length) = [6] := by decide +kernel
  obtain ⟨d, hd, hsix⟩ := List.mem_map.1 (hlengths ▸ List.mem_singleton_self 6)
  rw [hall d hd] at hsix
  cases hsix

end Compilation

end Daybook
