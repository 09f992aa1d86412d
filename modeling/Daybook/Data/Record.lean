import Daybook.Source.Span

/-!
Records as messages for developers show them: a name, and in parentheses the fields with their values.
-/

namespace Daybook

/-- Texts with a comma and a space between them. -/
def commaSeparated (texts : List String) : String :=
  String.intercalate ", " texts

/-- A record with the given name and fields. -/
def recordLiteral (name : String) (fields : List (String × String)) : String :=
  name ++ "(" ++ commaSeparated (fields.map fun (field, shown) => field ++ "=" ++ shown) ++ ")"

/-- A span as messages for developers show it. -/
def Span.literal (s : Span) : String :=
  recordLiteral "Span" [("start", toString s.start), ("end", toString s.stop)]

/-- A span that may be missing. -/
def Span.literal? : Option Span → String
  | some s => s.literal
  | none => "None"

end Daybook
