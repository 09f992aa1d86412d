import Daybook.Proofs.Account.Path
import Daybook.Proofs.Calendar.Iso
import Daybook.Proofs.Report.Rows
import Daybook.Proofs.Report.Table

/-!
Balance sheets are read back from their text.

The text has a row for the date, if there is one, a header, and a row for each account and for each kind
(`rows_render`). Rows are taken apart at spaces, and what the words of a row say is an account with its tags
and amounts, or a kind with its amounts (`line?`). An account without tags has as many words as a kind; what
tells them apart are the brackets, which no path has (`kind?_path`). So every sheet is read back from its text
(`read?_render`), and in the sheet of a ledger no account is without tags. Main statement: `isReport_of`.
-/

namespace Daybook

open Text Table

/-- What is read back one by one is read back as a list. -/
theorem mapM_map_eq_some {α β : Type} {write : α → β} {read : β → Option α}
    (h : ∀ a, read (write a) = some a) (as : List α) : (as.map write).mapM read = some as := by
  induction as with
  | nil => rfl
  | cons a as ih =>
    rw [List.map_cons, List.mapM_cons, h, ih]
    rfl

namespace BalanceSheet

/-! ## The rows of the text -/

/-- Tags with commas between them are a word. -/
theorem isWord_codes {cs : List Currency} (h : cs ≠ []) : IsWord (",".intercalate (cs.map (·.code))) := by
  refine IsWord.intercalate (isWord_of_all (by decide)) ?_ ?_
  · rwa [ne_eq, List.map_eq_nil_iff]
  · rw [List.forall_mem_map]
    exact fun c _ => c.isWord_code

/-- The line of an account has no spaces within its cells. -/
theorem isPlain_accountLine (r : AccountRow) : (accountLine r).IsPlain := by
  refine Line.isPlain_of r.account.isWord_path ?_ r.totals
  by_cases h : r.currencies = []
  · exact .inl (by rw [h, List.map_nil, String.intercalate_nil])
  · exact .inr (isWord_codes h)

/-- Nor has the line of a kind. -/
theorem isPlain_kindLine (r : KindRow) : (kindLine r).IsPlain := by
  refine Line.isPlain_of ?_ (.inl rfl) r.totals
  exact (IsWord.append (isWord_of_all (by decide)) r.kind.isWord_keyword).append (isWord_of_all (by decide))

variable (s : BalanceSheet)

/-- The row above the table, which has the date of the sheet. -/
def title : List String :=
  (s.asOf.map fun date => "as of " ++ date.iso).toList

/-- The accounts and then the kinds of a sheet. -/
def entries : List (AccountRow ⊕ KindRow) :=
  s.accounts.map .inl ++ s.kinds.map .inr

/-- The line of an account or of a kind. -/
def entryLine : AccountRow ⊕ KindRow → Line :=
  Sum.elim accountLine kindLine

theorem isPlain_entryLine (e : AccountRow ⊕ KindRow) : (entryLine e).IsPlain := by
  cases e with
  | inl r => exact isPlain_accountLine r
  | inr r => exact isPlain_kindLine r

/-- The table is its header and one line for each entry. -/
theorem tableLines_eq : s.tableLines = Line.header :: s.entries.map entryLine := by
  rw [tableLines, entries, List.map_append, List.map_map, List.map_map]
  rfl

theorem map_tableLines {β : Type} (f : Line → β) :
    s.tableLines.map f = f Line.header :: s.entries.map (f ∘ entryLine) := by
  rw [tableLines_eq, List.map_cons, List.map_map]

/-- No line of the table has spaces within its cells. -/
theorem isPlain_of_mem {l : Line} (h : l ∈ s.tableLines) : l.IsPlain := by
  rw [tableLines_eq] at h
  rcases List.mem_cons.1 h with rfl | h
  · exact Line.isPlain_header
  · obtain ⟨e, -, rfl⟩ := List.mem_map.1 h
    exact isPlain_entryLine e

/-- **The rows of the text** are those of the title and of the lines. -/
theorem rows_render : rows s.render = s.title ++ s.tableLines.map (Line.render s.tableLines) := by
  have hrender : s.render = "\n".intercalate (s.title ++ s.tableLines.map (Line.render s.tableLines)) := by
    rw [render, title]
    cases s.asOf <;> rfl
  have hne : s.title ++ s.tableLines.map (Line.render s.tableLines) ≠ [] := by
    rw [tableLines_eq, List.map_cons]
    exact List.append_ne_nil_of_right_ne_nil _ (List.cons_ne_nil _ _)
  -- It is left to show that no line has a newline in it, so that each is a row of its own.
  rw [hrender, rows_intercalate hne, flatMap_rows]
  intro row hrow
  rcases List.mem_append.1 hrow with htitle | hline
  · rw [title, Option.mem_toList, Option.map_eq_some_iff] at htitle
    obtain ⟨date, -, rfl⟩ := htitle
    exact newline_not_mem_append (by decide) date.isWord_iso.newline_not_mem
  · obtain ⟨l, hl, rfl⟩ := List.mem_map.1 hline
    exact Line.newline_not_mem_render (s.isPlain_of_mem hl) _

/-! ## The words of the rows -/

section Words

variable (lines : List Line)

/-- The words of a line without tags are those of the account and of the totals. -/
theorem words_accountLine_of_nil {r : AccountRow} (h : r.currencies = []) :
    words ((accountLine r).render lines) = [r.account.path,
      Amount.text r.totals.debits, Amount.text r.totals.credits, Amount.text r.totals.balance] := by
  have hwords : words (accountLine r).currency = [] := by
    rw [accountLine, h]
    exact words_empty
  rw [Line.words_render (isPlain_accountLine r), hwords]
  rfl

/-- The words of the line of an account: its path, its tags with commas between them, and the totals. -/
theorem words_accountLine {r : AccountRow} (h : r.currencies ≠ []) :
    words ((accountLine r).render lines) = [r.account.path, ",".intercalate (r.currencies.map (·.code)),
      Amount.text r.totals.debits, Amount.text r.totals.credits, Amount.text r.totals.balance] := by
  have hwords : words (accountLine r).currency = [",".intercalate (r.currencies.map (·.code))] :=
    (isWord_codes h).words_eq
  rw [Line.words_render (isPlain_accountLine r), hwords]
  rfl

/-- The words of the line of a kind: its name in brackets, and the totals. -/
theorem words_kindLine (r : KindRow) :
    words ((kindLine r).render lines) = ["[" ++ r.kind.keyword ++ "]",
      Amount.text r.totals.debits, Amount.text r.totals.credits, Amount.text r.totals.balance] := by
  rw [Line.words_render (isPlain_kindLine r)]
  exact congrArg (_ :: · ++ _) words_empty

/-- The header is read as the five titles of the columns. -/
theorem words_header : words (Line.header.render lines)
    = ["account", "currency", "debits", "credits", "balance"] := by
  rw [Line.words_render Line.isPlain_header]
  decide

end Words

/-! ## What the rows say -/

/-- The tags that a word names, which has commas between them. -/
def currencies? (codes : String) : Option (List Currency) :=
  (splitAt ',' codes).mapM fun code => (Currency.of? code).toOption

/-- The totals that three words name. -/
def totals? (debits credits balance : String) : Option Totals := do
  let debits ← Amount.read? debits.toList
  let credits ← Amount.read? credits.toList
  let balance ← Amount.read? balance.toList
  return ⟨debits, credits, balance⟩

/-- The account with a path. -/
def account? (path : String) : Option Account :=
  (Account.parse path).toOption

/-- The kind whose name stands in brackets. -/
def kind? (name : String) : Option AccountKind :=
  AccountKind.all.find? fun kind => "[" ++ kind.keyword ++ "]" = name

/-- What the words of a row say of an account or of a kind. -/
def line? : List String → Option (AccountRow ⊕ KindRow)
  | [path, codes, debits, credits, balance] => do
    let account ← account? path
    let currencies ← currencies? codes
    let totals ← totals? debits credits balance
    return .inl ⟨account, currencies, totals⟩
  | [name, debits, credits, balance] => do
    -- There are no tags: this is a kind, or an account of which no currency is known.
    let totals ← totals? debits credits balance
    match kind? name with
    | some kind => return .inr ⟨kind, totals⟩
    | none =>
      let account ← account? name
      return .inl ⟨account, [], totals⟩
  | _ => none

/-- The sheet with the rows that some words say. -/
def table? (asOf : Option Date) (table : List (List String)) : Option BalanceSheet := do
  let entries ← table.mapM line?
  return ⟨asOf, entries.filterMap Sum.getLeft?, entries.filterMap Sum.getRight?⟩

/-- The sheet that the words of all rows say. A title has three words, and the header has more. -/
def sheet? : List (List String) → Option BalanceSheet
  | [_, _, date] :: _ :: table => do
    let date ← Date.ofIso? date
    table? (some date) table
  | _ :: table => table? none table
  | [] => none

/-- The sheet that a text shows. -/
def read? (text : String) : Option BalanceSheet :=
  sheet? ((rows text).map words)

/-- Currencies are read back from their codes, with commas between them. -/
theorem currencies?_codes {cs : List Currency} (hne : cs ≠ []) :
    currencies? (",".intercalate (cs.map (·.code))) = some cs := by
  have hcomma : ∀ code ∈ cs.map (·.code), ',' ∉ code.toList := by
    rw [List.forall_mem_map]
    intro c _ hmem
    have hcode := c.isCode
    rw [isCurrencyCode, Bool.and_eq_true, List.all_eq_true] at hcode
    exact absurd (hcode.2 ',' hmem) (by decide)
  have hsplit : splitAt ',' (",".intercalate (cs.map (·.code))) = cs.map (·.code) := by
    refine splitAt_intercalate hcomma ?_
    rwa [ne_eq, List.map_eq_nil_iff]
  rw [currencies?, hsplit]
  exact mapM_map_eq_some (fun c => congrArg Except.toOption (dif_pos c.isCode)) cs

/-- Totals are read back from their three amounts. -/
theorem totals?_text (t : Totals) :
    totals? (Amount.text t.debits) (Amount.text t.credits) (Amount.text t.balance) = some t := by
  simp only [totals?, Amount.text, String.toList_ofList, Amount.read?_toChars]
  rfl

/-- An account is read back from its path, since no path is in brackets. -/
theorem account?_path (a : Account) : account? a.path = some a :=
  congrArg Except.toOption a.parse_path

/-- A kind is read back from its keyword in brackets. -/
theorem kind?_bracketed (kind : AccountKind) : kind? ("[" ++ kind.keyword ++ "]") = some kind := by
  cases kind <;> decide

/-- **No path is that of a kind**, since paths have no brackets. -/
theorem kind?_path (a : Account) : kind? a.path = none := by
  rw [kind?, List.find?_eq_none]
  intro kind _ hpath
  -- The path can be parsed, and a name in brackets cannot.
  have hread := account?_path a
  rw [← of_decide_eq_true hpath] at hread
  cases kind <;> cases hread

/-- **What is said of an account or of a kind can be read back from the words of its line.** -/
theorem line?_words (e : AccountRow ⊕ KindRow) (lines : List Line) :
    line? (words ((entryLine e).render lines)) = some e := by
  cases e with
  | inl r =>
    by_cases h : r.currencies = []
    · rw [entryLine, Sum.elim_inl, words_accountLine_of_nil lines h]
      simp only [line?, totals?_text, kind?_path, account?_path, Option.bind_eq_bind, Option.bind_some,
        Option.pure_def, ← h]
    · rw [entryLine, Sum.elim_inl, words_accountLine lines h]
      simp only [line?, totals?_text, currencies?_codes h, account?_path, Option.bind_eq_bind,
        Option.bind_some, Option.pure_def]
  | inr r =>
    rw [entryLine, Sum.elim_inr, words_kindLine]
    simp only [line?, totals?_text, kind?_bracketed, Option.bind_eq_bind, Option.bind_some, Option.pure_def]

/-- The accounts and the kinds are found among what the rows say. -/
theorem table?_words (asOf : Option Date) (lines : List Line) :
    table? asOf (s.entries.map fun e => words ((entryLine e).render lines))
      = some ⟨asOf, s.accounts, s.kinds⟩ := by
  have haccounts : s.entries.filterMap Sum.getLeft? = s.accounts := by
    have hkinds : s.kinds.filterMap (Sum.getLeft? ∘ Sum.inr (α := AccountRow)) = [] :=
      List.filterMap_eq_nil_iff.2 fun _ _ => rfl
    rw [entries, List.filterMap_append, List.filterMap_map, List.filterMap_map, hkinds, List.append_nil]
    exact List.filterMap_some
  have hkinds : s.entries.filterMap Sum.getRight? = s.kinds := by
    have haccounts : s.accounts.filterMap (Sum.getRight? ∘ Sum.inl (β := KindRow)) = [] :=
      List.filterMap_eq_nil_iff.2 fun _ _ => rfl
    rw [entries, List.filterMap_append, List.filterMap_map, List.filterMap_map, haccounts,
      List.nil_append]
    exact List.filterMap_some
  rw [table?, mapM_map_eq_some (fun e => line?_words e lines)]
  exact congrArg₂ (fun accounts kinds => some (⟨asOf, accounts, kinds⟩ : BalanceSheet)) haccounts hkinds

/-- The title says the date as a word of its own. -/
theorem words_title (date : Date) : words ("as of " ++ date.iso) = ["as", "of", date.iso] := by
  have htitle : "as of " ++ date.iso = "as" ++ " " ++ ("of" ++ " " ++ date.iso) := by
    rw [← String.append_assoc, ← String.append_assoc]
    rfl
  have hwords : words "as" = ["as"] ∧ words "of" = ["of"] := by decide
  rw [htitle, words_append_space, words_append_space, hwords.1, hwords.2, date.isWord_iso.words_eq]
  rfl

/-- **Every sheet can be read back from its text.** -/
theorem read?_render : read? s.render = some s := by
  have hrows : (rows s.render).map words = s.title.map words
      ++ words (Line.header.render s.tableLines)
        :: s.entries.map fun e => words ((entryLine e).render s.tableLines) := by
    rw [rows_render, List.map_append, List.map_map, map_tableLines]
    simp only [Function.comp_def]
  have htable := table?_words s s.asOf s.tableLines
  -- The rows below the header are the same with a title as without one.
  rw [read?, hrows, words_header, title]
  generalize s.entries.map (fun e => words ((entryLine e).render s.tableLines)) = table at htable
  obtain ⟨_ | date, accounts, kinds⟩ := s
  · exact htable
  · show sheet? (words ("as of " ++ date.iso) :: _ :: table) = _
    rw [words_title, sheet?, Date.ofIso?_iso]
    exact htable

/-- Different sheets have different texts. -/
theorem render_injective : Function.Injective render := by
  intro s t h
  have hread := congrArg read? h
  rw [read?_render, read?_render] at hread
  exact Option.some.inj hread

/-! ## Reports -/

/-- How an account is shown in a row. -/
structure ShowsAccount (stops : Stops) (r : AccountRow) (row : String) : Prop where
  words_eq : words row = [r.account.path, ",".intercalate (r.currencies.map (·.code)),
    Amount.text r.totals.debits, Amount.text r.totals.credits, Amount.text r.totals.balance]
  isSetAs : (accountLine r).IsSetAs stops row

/-- How a kind is shown in a row. -/
structure ShowsKind (stops : Stops) (r : KindRow) (row : String) : Prop where
  words_eq : words row = ["[" ++ r.kind.keyword ++ "]",
    Amount.text r.totals.debits, Amount.text r.totals.credits, Amount.text r.totals.balance]
  isSetAs : (kindLine r).IsSetAs stops row

/-- Whether a text is an aligned report of a sheet, and of no other one: all rows of the table are as long as
the columns are together, the columns of amounts end at the same offsets in all of them, and the words of the
rows are those of the accounts and the kinds, in the order of the sheet. -/
structure IsReport (s : BalanceSheet) (text : String) : Prop where
  table : ∃ stops header accounts kinds, rows text = s.title ++ header :: (accounts ++ kinds)
    ∧ words header = ["account", "currency", "debits", "credits", "balance"]
    ∧ Line.header.IsSetAs stops header
    ∧ List.Forall₂ (ShowsAccount stops) s.accounts accounts
    ∧ List.Forall₂ (ShowsKind stops) s.kinds kinds
  read_back : read? text = some s
  unique : ∀ other : BalanceSheet, other.render = text → other = s

/-- **The text of a sheet with tags in every row is an aligned report.** -/
theorem isReport_render {s : BalanceSheet} (h : ∀ r ∈ s.accounts, r.currencies ≠ []) :
    s.IsReport s.render := by
  have hset {l : Line} (hl : l ∈ s.tableLines) := Line.isSetAs_render (s.isPlain_of_mem hl) hl
  refine ⟨?table, s.read?_render, fun _ htext => render_injective htext⟩
  refine ⟨Line.stops s.tableLines, Line.header.render s.tableLines,
    s.accounts.map fun r => (accountLine r).render s.tableLines,
    s.kinds.map fun r => (kindLine r).render s.tableLines,
    ?rows, words_header _, ?header, ?accounts, ?kinds⟩
  case rows =>
    rw [rows_render, map_tableLines, entries, List.map_append, List.map_map, List.map_map]
    rfl
  case header => exact hset List.mem_cons_self
  case accounts =>
    rw [List.forall₂_map_right_iff, List.forall₂_same]
    intro r hr
    refine ⟨words_accountLine _ (h r hr), hset ?_⟩
    exact List.mem_append_left _ (List.mem_cons_of_mem _ (List.mem_map_of_mem hr))
  case kinds =>
    rw [List.forall₂_map_right_iff, List.forall₂_same]
    intro r hr
    refine ⟨words_kindLine _ r, hset ?_⟩
    exact List.mem_append_right _ (List.mem_map_of_mem hr)

/-- **The report of a ledger is aligned, and nothing is lost in it.** -/
theorem isReport_of (l : Ledger) (asOf : Option Date) : (of l asOf).IsReport (of l asOf).render :=
  isReport_render fun _ hr => (isRowOf_of_mem hr).currencies_ne_nil

end BalanceSheet

end Daybook
