import Daybook.Report.BalanceSheet
import Daybook.Text.Blank

/-!
Balance sheets as text.

The text is a table with a header. The account and the currencies are set flush left, the three
amounts flush right, with two spaces between columns; every column is as wide as its widest cell.
White space at the end of a line is left out.
-/

namespace Daybook

namespace Table

/-- The length of the longest of some texts. -/
def widest (cells : List String) : Nat :=
  (cells.map String.length).foldl max 0

/-- A cell set flush left. -/
def flushLeft (width : Nat) (cell : String) : String :=
  cell ++ Text.spaces (width - cell.length)

/-- A cell set flush right. -/
def flushRight (width : Nat) (cell : String) : String :=
  Text.spaces (width - cell.length) ++ cell

/-- One line of a balance sheet. -/
structure Line where
  account : String
  currency : String
  debits : String
  credits : String
  balance : String
  deriving DecidableEq

/-- The names of the columns. -/
def Line.header : Line := ⟨"account", "currency", "debits", "credits", "balance"⟩

/-- A line with the given totals. -/
def Line.of (account currency : String) (t : Totals) : Line :=
  ⟨account, currency, Amount.text t.debits, Amount.text t.credits, Amount.text t.balance⟩

/-- The cells of a line, each as wide as its column in all lines, with two spaces between them. -/
def Line.padded (lines : List Line) (l : Line) : String :=
  String.intercalate "  "
    [ flushLeft (widest (lines.map (·.account))) l.account,
      flushLeft (widest (lines.map (·.currency))) l.currency,
      flushRight (widest (lines.map (·.debits))) l.debits,
      flushRight (widest (lines.map (·.credits))) l.credits,
      flushRight (widest (lines.map (·.balance))) l.balance ]

/-- The text of a line. -/
def Line.render (lines : List Line) (l : Line) : String :=
  Text.stripEnd (l.padded lines)

end Table

namespace BalanceSheet

/-- The line of an account. -/
def accountLine (r : AccountRow) : Table.Line :=
  .of r.account.path (String.intercalate "," (r.currencies.map (·.code))) r.totals

/-- The line of a kind, whose name stands in brackets. -/
def kindLine (r : KindRow) : Table.Line :=
  .of ("[" ++ r.kind.keyword ++ "]") "" r.totals

/-- The lines of the table. -/
def tableLines (s : BalanceSheet) : List Table.Line :=
  .header :: s.accounts.map accountLine ++ s.kinds.map kindLine

/-- The text of a balance sheet. -/
def render (s : BalanceSheet) : String :=
  let lines := s.tableLines
  let title := match s.asOf with
    | some date => ["as of " ++ date.iso]
    | none => []
  String.intercalate "\n" (title ++ lines.map (Table.Line.render lines))

end BalanceSheet

end Daybook
