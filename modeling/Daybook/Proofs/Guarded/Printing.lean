import Daybook.Proofs.Guarded.Numeric
import Daybook.Proofs.Text.Utf8
import Daybook.Report.Table
import Daybook.Source.Notice

/-!
Balance sheets and notices as text.

A table is as wide as the longest cell of each column, and it has a header, so there is one. Its amounts
are of any size. The numbers of a notice are no amounts but count the lines and characters of a source, and
they are converted in one step; a number that is too long for that would count more bytes than
`10 ^ digitLimit` (`rendered_eq`).
-/

namespace Daybook

namespace Location

open Text.Utf8

/-! ## Lines and columns of a source -/

/-- No line number is larger than the source is long. -/
theorem line_le (source : String) (range : Span) :
    (Location.of source range).line ≤ width source.toList + 1 := by
  rw [← length_encode]
  refine Nat.succ_le_succ (List.count_le_length.trans ?_)
  exact List.length_take_le' _ _

/-- Nor is any column. -/
theorem column_le (source : String) (range : Span) :
    (Location.of source range).column ≤ width source.toList + 1 := by
  rw [← length_encode]
  refine Nat.succ_le_succ ((length_decode_le _).trans ?_)
  rw [afterLastNewline, List.length_reverse]
  refine (List.takeWhile_prefix _).length_le.trans ?_
  rw [List.length_reverse]
  exact List.length_take_le' _ _

end Location

namespace Guarded

open Numeral (digitLimit)
open Table (flushLeft flushRight)

-- Powers are those of the core library, whatever else is in scope.
attribute [local instance (high)] instPowNat

/-! ## Tables -/

/-- The length of the longest of some cells. -/
def widest : List String → Guarded Nat
  | [] => .error .cell
  | cell :: cells => .ok (cells.foldl (fun n other => max n other.length) cell.length)

/-- Columns of a table have a width, since there is a header. -/
theorem widest_cons (cell : String) (cells : List String) :
    widest (cell :: cells) = .ok (Table.widest (cell :: cells)) := by
  rw [widest, Table.widest, List.map_cons, List.foldl_cons, List.foldl_map, Nat.zero_max]

/-- A line with the given totals. -/
def line (account currency : String) (t : Totals) : Guarded Table.Line := do
  let debits ← amount t.debits
  let credits ← amount t.credits
  let balance ← amount t.balance
  return ⟨account, currency, debits, credits, balance⟩

/-- A line of the table is made from totals without a breach. -/
theorem line_eq (account currency : String) (t : Totals) :
    line account currency t = .ok (.of account currency t) := by
  rw [line, bind_of_eq (amount_eq _), bind_of_eq (amount_eq _), bind_of_eq (amount_eq _)]
  rfl

/-- The cells of a line, each as wide as its column in all lines, with two spaces between them and no white
space at the end. -/
def row (lines : List Table.Line) (l : Table.Line) : Guarded String := do
  let account ← widest (lines.map (·.account))
  let currency ← widest (lines.map (·.currency))
  let debits ← widest (lines.map (·.debits))
  let credits ← widest (lines.map (·.credits))
  let balance ← widest (lines.map (·.balance))
  return Text.stripEnd <| String.intercalate "  "
    [ flushLeft account l.account, flushLeft currency l.currency, flushRight debits l.debits,
      flushRight credits l.credits, flushRight balance l.balance ]

/-- A line is rendered below a header. -/
theorem row_cons (header : Table.Line) (lines : List Table.Line) (l : Table.Line) :
    row (header :: lines) l = .ok (l.render (header :: lines)) := by
  unfold row
  simp only [List.map_cons]
  rw [bind_of_eq (widest_cons _ _), bind_of_eq (widest_cons _ _), bind_of_eq (widest_cons _ _),
    bind_of_eq (widest_cons _ _), bind_of_eq (widest_cons _ _)]
  rfl

/-- The text of a balance sheet. -/
def sheet (s : BalanceSheet) : Guarded String := do
  let accounts ← s.accounts.mapM fun r =>
    line r.account.path (String.intercalate "," (r.currencies.map (·.code))) r.totals
  let kinds ← s.kinds.mapM fun r => line ("[" ++ r.kind.keyword ++ "]") "" r.totals
  let lines := .header :: accounts ++ kinds
  let title := match s.asOf with
    | some date => ["as of " ++ date.iso]
    | none => []
  let rows ← lines.mapM (row lines)
  return String.intercalate "\n" (title ++ rows)

/-- **Every balance sheet has a text.** -/
theorem sheet_eq (s : BalanceSheet) : sheet s = .ok s.render := by
  have haccounts := mapM_eq (fun r : AccountRow => line_eq r.account.path
    (String.intercalate "," (r.currencies.map (·.code))) r.totals) s.accounts
  have hkinds := mapM_eq (fun r : KindRow => line_eq ("[" ++ r.kind.keyword ++ "]") "" r.totals)
    s.kinds
  have hrows := mapM_eq (row_cons .header
    (s.accounts.map BalanceSheet.accountLine ++ s.kinds.map BalanceSheet.kindLine)) s.tableLines
  rw [sheet, bind_of_eq haccounts, bind_of_eq hkinds]
  exact bind_of_eq hrows _

/-! ## Notices -/

/-- The text of a number that counts something, converted in one step. -/
def count (n : Nat) : Guarded String :=
  if n < 10 ^ digitLimit then .ok (toString n) else .error .digits

/-- A count with few enough digits is written. -/
theorem count_of_lt {n : Nat} (h : n < 10 ^ digitLimit) : count n = .ok (toString n) :=
  if_pos h

/-- The lines of a notice about a place. -/
def excerpt (sourceName : String) (details : Option String) (place : Location) :
    Guarded (List String) := do
  let number ← count place.line
  let column ← count place.column
  let gutter := Text.spaces number.length
  let carets := String.ofList (List.replicate place.underline '^')
  let marker := if place.continues then carets ++ " ..." else carets
  return [ gutter ++ "--> " ++ sourceName ++ ":" ++ number ++ ":" ++ column,
    gutter ++ " |",
    number ++ " | " ++ place.lineText,
    gutter ++ " | " ++ Text.spaces (place.column - 1) ++ marker ]
    ++ Notice.detailLines gutter details

/-- The text of a notice. -/
def rendered (source sourceName : String) (n : Notice) : Guarded String :=
  match n.span with
  | some range => do
    let lines ← excerpt sourceName n.details (Location.of source range)
    return String.intercalate "\n" (n.headline :: lines)
  | none => .ok (String.intercalate "\n" (n.headline :: Notice.detailLines " " n.details))

/-- The lines of an excerpt are written if its line and its column are. -/
theorem excerpt_eq (sourceName : String) (details : Option String) {place : Location}
    (hline : place.line < 10 ^ digitLimit) (hcolumn : place.column < 10 ^ digitLimit) :
    excerpt sourceName details place = .ok (Notice.excerpt sourceName place
      ++ Notice.detailLines (Text.spaces (toString place.line).length) details) := by
  rw [excerpt, bind_of_eq (count_of_lt hline), bind_of_eq (count_of_lt hcolumn)]
  rfl

/-- **Every notice about a source has a text**, unless the source has as many bytes as no memory. -/
theorem rendered_eq {source : String} (sourceName : String) (n : Notice)
    (h : Text.Utf8.width source.toList + 1 < 10 ^ digitLimit) :
    rendered source sourceName n = .ok (n.render source sourceName) := by
  unfold rendered Notice.render Notice.lines
  cases n.span with
  | none => rfl
  | some range =>
    have hline := (Location.line_le source range).trans_lt h
    have hcolumn := (Location.column_le source range).trans_lt h
    show excerpt _ _ _ >>= _ = _
    rw [bind_of_eq (excerpt_eq sourceName n.details hline hcolumn)]
    rfl

end Guarded

end Daybook
