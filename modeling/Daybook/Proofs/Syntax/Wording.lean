import Daybook.Proofs.Account.Path
import Daybook.Proofs.Numeric.Decimal
import Daybook.Proofs.Syntax.Faultless
import Daybook.Proofs.Syntax.Reading
import Daybook.Proofs.Text.Rows

/-!
The wording of errors.

What is wanted is named in words of the grammar, and pieces of the source are quoted, so that messages have
no newlines. What was found is another matter: the text of a string is shown as it is, over line ends too.
Every rejection of a production is `Legible`: it shows no newline, or it is about such a string.
Main statement: `Parsed.legible_of_mem_errors`.
-/

namespace Daybook

open Text

/-! ## Words without newlines -/

theorem Decimal.newline_not_mem_text (d : Decimal) : '\n' ∉ d.text.toList := by
  rw [Decimal.text, String.toList_ofList]
  intro h
  exact absurd (Decimal.isLiteralChar_of_mem h) (by decide)

namespace Wanted

theorem newline_not_mem_phrase (w : Wanted) : '\n' ∉ w.phrase.toList := by
  cases w
  all_goals decide

theorem newline_not_mem_expected (w : Wanted) : '\n' ∉ w.expected.toList := by
  cases w with
  | hyphen => decide
  | colon => decide
  | _ => exact newline_not_mem_phrase _

end Wanted

theorem DatePart.newline_not_mem_name (part : DatePart) : '\n' ∉ part.name.toList := by
  cases part
  all_goals decide

namespace Complaint

/-- What should have been there is never named by a text of the source. -/
theorem newline_not_mem_expected (c : Complaint) : '\n' ∉ c.expected.toList := by
  cases c with
  | unexpected wanted => exact wanted.newline_not_mem_expected
  | ended wanted => exact wanted.newline_not_mem_expected
  | unknownKeyword name => exact (by decide : '\n' ∉ (unknownKeyword "").expected.toList)
  | unknownKind name => exact (by decide +kernel : '\n' ∉ (unknownKind "").expected.toList)
  | tooManySegments => decide +kernel
  | noMovement => decide
  | negativeMovement => decide
  | badDatePart part text =>
    have hall : '\n' ∉ (badDatePart part "").expected.toList := by
      cases part
      all_goals decide +kernel
    exact hall
  | noSuchDate text => exact (by decide : '\n' ∉ (noSuchDate "").expected.toList)

/-- Whether no text of the source that is shown unquoted has a newline. -/
def IsPlain : Complaint → Prop
  | .badDatePart _ text => '\n' ∉ text.toList
  | .noSuchDate text => '\n' ∉ text.toList
  | _ => True

/-- A complaint is on one line, if what it quotes is. -/
theorem newline_not_mem_message {c : Complaint} (h : c.IsPlain) : '\n' ∉ c.message.toList := by
  cases c with
  | unexpected wanted => exact newline_not_mem_append (by decide) wanted.newline_not_mem_phrase
  | ended wanted => exact newline_not_mem_append (by decide) wanted.newline_not_mem_phrase
  | unknownKeyword name => exact newline_not_mem_append (by decide) (newline_not_mem_quoted name)
  | unknownKind name => exact newline_not_mem_append (by decide) (newline_not_mem_quoted name)
  | badDatePart part text =>
    have hfront := newline_not_mem_append part.newline_not_mem_name (t := " ") (by decide)
    exact newline_not_mem_append (newline_not_mem_append hfront h) (by decide)
  | noSuchDate text => exact newline_not_mem_append h (by decide)
  | tooManySegments => decide +kernel
  | noMovement => decide
  | negativeMovement => decide

end Complaint

/-- Tokens are quoted, all but strings. -/
theorem Token.newline_not_mem_describe {t : Token} (h : ∀ content, t ≠ .string content) :
    '\n' ∉ t.describe.toList := by
  have hquoted : '\n' ∉ (t.kind.name ++ " " ++ quoted t.text).toList := by
    refine newline_not_mem_append (newline_not_mem_append ?_ (by decide)) (newline_not_mem_quoted _)
    cases t.kind
    all_goals decide
  cases t with
  | string content => exact absurd rfl (h content)
  | _ => exact hquoted

/-! ## What a rejection shows -/

/-- Whether a text is what is found at a string of the tokens that goes over a line end. -/
def IsTornString (ts : Tokens) (span : Span) (found : String) : Prop :=
  ∃ content : String, '\n' ∈ content.toList ∧ found = (Token.string content).describe
    ∧ ⟨.string content, span⟩ ∈ ts

/-- A torn string among some tokens is one among more of them. -/
theorem IsTornString.mono {ts us : Tokens} {span : Span} {found : String}
    (h : IsTornString ts span found) (hsubset : ts ⊆ us) : IsTornString us span found := by
  obtain ⟨content, hnewline, hdescribe, hmem⟩ := h
  exact ⟨content, hnewline, hdescribe, hsubset hmem⟩

namespace Production

open Grammar

variable {α β : Type} {ts rest : Tokens}

/-- Whether a rejection shows no newline, unless it is about a string that goes over a line end. -/
structure Legible (ts : Tokens) (r : Rejection) : Prop where
  isPlain : r.complaint.IsPlain
  found : ∀ span found, r.place = some (span, found) →
    '\n' ∉ found.toList ∨ IsTornString ts span found

/-- Whether the outcome is a legible rejection if it is one at all. -/
def Legibly (ts : Tokens) (x : Except Failure α) : Prop :=
  ∀ r, x = .error (.rejected r) → Legible ts r

/-- What is legible for the tokens that are left is so for all of them. -/
theorem Legibly.of_suffix {x : Except Failure α} (h : Legibly rest x) (hsuffix : rest <:+ ts) :
    Legibly ts x := by
  intro r hr
  obtain ⟨hplain, hfound⟩ := h r hr
  refine ⟨hplain, ?_⟩
  intro span found hplace
  exact (hfound span found hplace).imp_right fun htorn => htorn.mono hsuffix.subset

theorem legibly_ok (a : α) : Legibly ts (.ok a) := by
  intro r h
  cases h

theorem legibly_fault (f : TokenFault) : Legibly ts (.error (.fault f) : Except Failure α) := by
  intro r h
  cases h

/-- Steps one after the other are legible if each is, the second one for what the first gives. -/
theorem legibly_bind {x : Except Failure α} {g : α → Except Failure β} (hx : Legibly ts x)
    (hg : ∀ a, x = .ok a → Legibly ts (g a)) : Legibly ts (x >>= g) := by
  cases x with
  | ok a => exact hg a rfl
  | error e =>
    intro r h
    cases h
    exact hx r rfl

/-- A rejection at the end shows nothing of the source. -/
theorem legibly_none {c : Complaint} (h : c.IsPlain) :
    Legibly ts (.error (.rejected ⟨c, none⟩) : Except Failure α) := by
  intro r hr
  cases hr
  refine ⟨h, ?_⟩
  intro span found hplace
  cases hplace

/-- A plain complaint about a text on one line is legible. -/
theorem legibly_text {c : Complaint} {span : Span} {found : String} (h : c.IsPlain)
    (hfound : '\n' ∉ found.toList) :
    Legibly ts (.error (.rejected ⟨c, some (span, found)⟩) : Except Failure α) := by
  intro r hr
  cases hr
  refine ⟨h, ?_⟩
  intro _ _ hplace
  cases hplace
  exact .inl hfound

/-- **A rejection of a token shows it**, quoted unless it is a string. -/
theorem legibly_refuseToken {c : Complaint} {t : Spanned Token} (h : c.IsPlain) (ht : t ∈ ts) :
    Legibly ts (.error (refuseToken c t) : Except Failure α) := by
  intro r hr
  cases hr
  refine ⟨h, ?_⟩
  intro _ _ hplace
  cases hplace
  by_cases hnewline : '\n' ∈ t.value.describe.toList
  · right
    obtain ⟨value, span⟩ := t
    cases value with
    | string content =>
      refine ⟨content, ?_, rfl, ht⟩
      -- The quotes and the word in front of them have no newline, so the content has one.
      by_contra hcontent
      refine newline_not_mem_append (s := "string ") (by decide) ?_ hnewline
      rw [Token.text, Token.chars, String.toList_ofList, List.cons_append, List.mem_cons,
        List.mem_append, List.mem_singleton]
      rintro (h | h | h)
      · cases h
      · exact hcontent h
      · cases h
    | _ => exact absurd hnewline (Token.newline_not_mem_describe (by rintro _ ⟨⟩))
  · exact .inl hnewline

/-- What is missing is told by the token that stands there instead. -/
theorem legibly_missing (wanted : Wanted) (ts : Tokens) :
    Legibly ts (.error (missing wanted ts) : Except Failure α) := by
  cases ts with
  | nil => exact legibly_none trivial
  | cons t ts => exact legibly_refuseToken trivial List.mem_cons_self

theorem legibly_refuse {c : Complaint} (h : c.IsPlain) (ts : Tokens) :
    Legibly ts (.error (refuse c ts) : Except Failure α) := by
  cases ts with
  | nil => exact legibly_none h
  | cons t ts => exact legibly_refuseToken h List.mem_cons_self

/-! ## What the productions show -/

/-- Taking a token is refused legibly. -/
theorem legibly_take (pick : Token → Option α) (wanted : Wanted) (ts : Tokens) :
    Legibly ts (take pick wanted ts) := by
  unfold take
  split
  · exact legibly_missing wanted []
  split
  · exact legibly_ok _
  · exact legibly_missing wanted _

theorem legibly_datePart (part : DatePart) (d : Spanned Decimal) : Legibly ts (datePart part d) := by
  have htext := d.value.newline_not_mem_text
  unfold datePart
  split
  · split
    · exact legibly_ok _
    · exact legibly_text htext htext
  · exact legibly_text htext htext

/-- A date that is none is quoted with hyphens, on one line. -/
theorem legibly_dateOf (year month day : Spanned Decimal) : Legibly ts (dateOf year month day) := by
  refine legibly_bind (legibly_datePart _ _) fun _ _ => ?_
  refine legibly_bind (legibly_datePart _ _) fun _ _ => ?_
  refine legibly_bind (legibly_datePart _ _) fun _ _ => ?_
  have htext : '\n' ∉ (year.value.text ++ "-" ++ month.value.text ++ "-" ++ day.value.text).toList := by
    have hyear := newline_not_mem_append year.value.newline_not_mem_text (t := "-") (by decide)
    have hmonth := newline_not_mem_append hyear month.value.newline_not_mem_text
    exact newline_not_mem_append (newline_not_mem_append hmonth (by decide))
      day.value.newline_not_mem_text
  split
  · exact legibly_ok _
  · exact legibly_text htext htext

theorem legibly_date (ts : Tokens) : Legibly ts (date ts) := by
  refine legibly_bind (legibly_take _ _ _) fun ⟨_, _⟩ h₁ => ?_
  have hs₁ := suffix_of_take h₁
  refine legibly_bind ((legibly_take _ _ _).of_suffix hs₁) fun ⟨_, _⟩ h₂ => ?_
  have hs₂ := (suffix_of_take h₂).trans hs₁
  refine legibly_bind ((legibly_take _ _ _).of_suffix hs₂) fun ⟨_, _⟩ h₃ => ?_
  have hs₃ := (suffix_of_take h₃).trans hs₂
  refine legibly_bind ((legibly_take _ _ _).of_suffix hs₃) fun ⟨_, _⟩ h₄ => ?_
  have hs₄ := (suffix_of_take h₄).trans hs₃
  refine legibly_bind ((legibly_take _ _ _).of_suffix hs₄) fun ⟨_, _⟩ _ => ?_
  exact legibly_bind (legibly_dateOf _ _ _) fun _ _ => legibly_ok _

theorem legibly_moreSegments (ts : Tokens) : Legibly ts (moreSegments ts) := by
  fun_induction moreSegments ts with
  | case1 => exact legibly_ok _
  | case2 => exact legibly_none trivial
  | case3 => exact legibly_ok _
  | case4 colon t ts _ _ _ ih =>
    have hsuffix : ts <:+ colon :: t :: ts := (List.suffix_cons t ts).trans (List.suffix_cons colon _)
    exact legibly_bind (ih.of_suffix hsuffix) fun _ _ => legibly_ok _
  | case5 colon t ts => exact (legibly_missing _ _).of_suffix (List.suffix_cons colon _)
  | case6 => exact legibly_ok _

/-- Segments are quoted only where they are identifiers, so on one line. -/
theorem legibly_accountOf {head first : Spanned String} {kind : AccountKind}
    {others : List (Spanned String)}
    (h : ∀ name ∈ (first :: others).map (·.value), isSegment name.toList = true) :
    Legibly ts (accountOf head kind first others) := by
  simp only [accountOf]
  split
  · refine legibly_text trivial (newline_not_mem_intercalate (by decide) ?_)
    refine List.forall_mem_cons.2 ⟨kind.isWord_keyword.newline_not_mem, ?_⟩
    intro name hname
    exact (isWord_of_isSegment (h name hname)).newline_not_mem
  split
  · exact legibly_ok _
  · exact legibly_fault _

theorem legibly_account {ts : Tokens} (h : Lexemes ts) : Legibly ts (account ts) := by
  refine legibly_bind (legibly_take _ _ _) fun ⟨head, ts₁⟩ h₁ => ?_
  have hs₁ := suffix_of_take h₁
  dsimp only
  split
  · obtain ⟨t, rfl, ht, hspan⟩ := eq_cons_of_take h₁
    refine legibly_refuseToken trivial ?_
    rw [← Token.identifier?_eq_some.1 ht, ← hspan]
    exact List.mem_cons_self
  refine legibly_bind ((legibly_take _ _ _).of_suffix hs₁) fun ⟨_, ts₂⟩ h₂ => ?_
  have hs₂ := (suffix_of_take h₂).trans hs₁
  refine legibly_bind ((legibly_take _ _ _).of_suffix hs₂) fun ⟨first, ts₃⟩ h₃ => ?_
  have hs₃ := (suffix_of_take h₃).trans hs₂
  refine legibly_bind ((legibly_moreSegments _).of_suffix hs₃) fun ⟨others, rest⟩ h₄ => ?_
  exact legibly_bind (legibly_accountOf (isSegment_of_path (h.of_suffix hs₂) h₃ h₄)) fun _ _ =>
    legibly_ok _

theorem legibly_currency (ts : Tokens) : Legibly ts (currency ts) := by
  refine legibly_bind (legibly_take _ _ _) fun ⟨code, rest⟩ _ => ?_
  refine legibly_bind ?_ fun _ _ => legibly_ok _
  unfold currencyOf
  split
  · exact legibly_ok _
  · exact legibly_fault _

theorem legibly_amount (sign : Option Span) (ts : Tokens) : Legibly ts (amount sign ts) := by
  refine legibly_bind (legibly_take _ _ _) fun ⟨_, _⟩ h₁ => ?_
  exact legibly_bind ((legibly_currency _).of_suffix (suffix_of_take h₁)) fun _ _ => legibly_ok _

theorem legibly_signed (ts : Tokens) : Legibly ts (signed ts) := by
  unfold signed
  split
  · split
    · exact (legibly_amount _ _).of_suffix (List.suffix_cons _ _)
    · exact legibly_amount _ _
  · exact legibly_amount _ _

theorem legibly_movement {ts : Tokens} (h : Lexemes ts) (arrow : Spanned String) :
    Legibly ts (movement arrow ts) := by
  refine legibly_bind ?_ fun _ _ => ?_
  · unfold directionOf
    split
    · exact legibly_ok _
    · exact legibly_fault _
  split
  · exact legibly_refuse (c := .negativeMovement) trivial ts
  · refine legibly_bind (legibly_amount _ _) fun ⟨_, _⟩ h₁ => ?_
    have hs₁ := suffix_of_amount h₁
    exact legibly_bind ((legibly_account (h.of_suffix hs₁)).of_suffix hs₁) fun _ _ => legibly_ok _

/-- Movements are legible one after the other, by induction on how they are read. -/
theorem legibly_movements {ts : Tokens} (h : Lexemes ts) : Legibly ts (movements ts) := by
  fun_induction movements ts with
  | case1 => exact legibly_ok _
  | case2 => exact legibly_ok _
  | case3 t ts symbol _ e herror =>
    have hts := h.of_suffix (List.suffix_cons t ts)
    intro r hr
    cases hr
    exact (legibly_movement hts ⟨symbol, t.span⟩).of_suffix (List.suffix_cons t ts) r herror
  | case4 t ts _ _ _ _ h₁ ih =>
    have hsuffix := (suffix_of_movement h₁).trans (List.suffix_cons t ts)
    exact legibly_bind ((ih (h.of_suffix hsuffix)).of_suffix hsuffix) fun _ _ => legibly_ok _

theorem legibly_opening {day : Spanned Date} {ts : Tokens} (h : Lexemes ts) :
    Legibly ts (opening day ts) := by
  refine legibly_bind (legibly_account h) fun ⟨_, _⟩ h₁ => ?_
  exact legibly_bind ((legibly_currency _).of_suffix (suffix_of_account h₁)) fun _ _ => legibly_ok _

theorem legibly_assertion {day : Spanned Date} {ts : Tokens} (h : Lexemes ts) :
    Legibly ts (assertion day ts) := by
  refine legibly_bind (legibly_account h) fun ⟨_, _⟩ h₁ => ?_
  exact legibly_bind ((legibly_signed _).of_suffix (suffix_of_account h₁)) fun _ _ => legibly_ok _

theorem legibly_transaction {day : Spanned Date} {ts : Tokens} (h : Lexemes ts) :
    Legibly ts (transaction day ts) := by
  refine legibly_bind (legibly_take _ _ _) fun ⟨_, _⟩ h₁ => ?_
  have hs₁ := suffix_of_take h₁
  refine legibly_bind ((legibly_movements (h.of_suffix hs₁)).of_suffix hs₁) fun ⟨_, us⟩ h₂ => ?_
  dsimp only
  split
  · exact (legibly_refuse (c := .noMovement) trivial us).of_suffix ((suffix_of_movements h₂).trans hs₁)
  · exact legibly_ok _

/-- **What a statement is rejected with shows no newline**, unless it is about a string that goes over a
line end. -/
theorem legibly_statement {ts : Tokens} (h : Lexemes ts) : Legibly ts (statement ts) := by
  refine legibly_bind (legibly_date _) fun ⟨_, rest⟩ h₁ => ?_
  obtain ⟨block, rfl, -⟩ := reads_of_date h₁
  have hs₁ := (skipColon_suffix rest).trans (List.suffix_append block rest)
  refine legibly_bind ((legibly_take _ _ _).of_suffix hs₁) fun ⟨keyword, body⟩ h₂ => ?_
  have hs₂ := (suffix_of_take h₂).trans hs₁
  dsimp only
  split
  · exact (legibly_opening (h.of_suffix hs₂)).of_suffix hs₂
  split
  · exact (legibly_assertion (h.of_suffix hs₂)).of_suffix hs₂
  split
  · exact (legibly_transaction (h.of_suffix hs₂)).of_suffix hs₂
  · obtain ⟨t, hcons, ht, hspan⟩ := eq_cons_of_take h₂
    refine legibly_refuseToken trivial (hs₁.subset ?_)
    rw [hcons, ← Token.identifier?_eq_some.1 ht, ← hspan]
    exact List.mem_cons_self

end Production

/-- Whether an error shows no newline, unless it is about a string that goes over a line end. -/
structure ParseError.Legible (ts : Tokens) (e : ParseError) : Prop where
  isPlain : e.complaint.IsPlain
  found : '\n' ∉ e.found.toList ∨ IsTornString ts e.span e.found

theorem ParseError.Legible.of_suffix {ts rest : Tokens} {e : ParseError} (h : e.Legible rest)
    (hsuffix : rest <:+ ts) : e.Legible ts :=
  ⟨h.isPlain, h.found.imp_right fun htorn => htorn.mono hsuffix.subset⟩

/-- A legible rejection becomes a legible error. -/
theorem Production.Legible.toError {ts : Tokens} {r : Rejection} (h : Legible ts r) (stop : Nat) :
    (r.toError stop).Legible ts := by
  obtain ⟨hplain, hfound⟩ := h
  unfold Rejection.toError
  split
  · next span found hplace => exact ⟨hplain, hfound span found hplace⟩
  · exact ⟨hplain, .inl (by decide : '\n' ∉ "end of input".toList)⟩

namespace Parsed

open Production

/-- **What an error of reading shows has no newline**, unless it is about a string that goes over a line
end. -/
theorem legible_of_mem_errors {stop : Nat} {ts : Tokens} (h : Lexemes ts) {e : ParseError}
    (he : e ∈ (read stop ts).errors) : e.Legible ts := by
  fun_induction read stop ts with
  | case1 => cases he
  | case2 t ts s rest hstatement ih =>
    have hsuffix := suffix_of_statement hstatement
    exact (ih (h.of_suffix hsuffix) he).of_suffix hsuffix
  | case3 t ts r hstatement ih =>
    rcases List.mem_cons.1 he with rfl | hmem
    · exact (legibly_statement h r hstatement).toError stop
    · have hsuffix := (nextStart_suffix ts).trans (List.suffix_cons t ts)
      exact (ih (h.of_suffix hsuffix) hmem).of_suffix hsuffix
  | case4 => cases he

end Parsed

end Daybook
