import Daybook.Source.Location
import Daybook.Text.Blank

/-!
Notices about a source text.

A notice says what is wrong, where, and what was expected and found there. `Notice.render` writes it
below the line of source it is about:

    error: Transaction does not balance, expected `0`, found -1
     --> ledger:3:1
      |
    3 | 2020-01-01 transaction "x"
      | ^^^^^^^^^^^^^^^^^^^^^^^^^^
      = Inside a transaction, all debits and credits must balance in the end.
-/

namespace Daybook

/-- Something to be said about a source. -/
structure Notice where
  message : String
  span : Option Span
  details : Option String
  found : Option String
  expected : Option String
  deriving DecidableEq

namespace Notice

/-- The first line. -/
def headline (n : Notice) : String :=
  let expected := match n.expected with
    | some e => ", expected `" ++ e ++ "`"
    | none => ""
  let found := match n.found with
    | some f => ", found " ++ f
    | none => ""
  "error: " ++ n.message ++ expected ++ found

/-- Details are shown if there are any. -/
def detailLines (gutter : String) (details : Option String) : List String :=
  match details with
  | some d => if d.isEmpty then [] else [gutter ++ " = " ++ d]
  | none => []

/-- The excerpt of the source that a location names, with its underlined part. -/
def excerpt (sourceName : String) (place : Location) : List String :=
  let number := toString place.line
  let gutter := Text.spaces number.length
  let carets := String.ofList (List.replicate place.underline '^')
  let marker := if place.continues then carets ++ " ..." else carets
  [ gutter ++ "--> " ++ sourceName ++ ":" ++ number ++ ":" ++ toString place.column,
    gutter ++ " |",
    number ++ " | " ++ place.lineText,
    gutter ++ " | " ++ Text.spaces (place.column - 1) ++ marker ]

/-- The lines of a notice. -/
def lines (source sourceName : String) (n : Notice) : List String :=
  match n.span with
  | some span =>
    let location := Location.of source span
    n.headline :: excerpt sourceName location
      ++ detailLines (Text.spaces (toString location.line).length) n.details
  | none => n.headline :: detailLines " " n.details

/-- The text of a notice. -/
def render (source sourceName : String) (n : Notice) : String :=
  String.intercalate "\n" (n.lines source sourceName)

end Notice

end Daybook
