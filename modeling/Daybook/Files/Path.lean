import Daybook.Text.Pieces

/-!
Paths.

A path is a list of names below a root or below the current directory. Names that are empty or a
single dot say nothing and are dropped, two dots are kept. What begins with exactly two slashes has a
root of its own.
-/

namespace Daybook

/-- Where a path begins. -/
inductive PathStart where
  | here
  | root
  /-- The root that is written with two slashes. -/
  | secondRoot
  deriving DecidableEq

/-- A path. -/
structure Path where
  start : PathStart
  names : List String
  deriving DecidableEq

namespace Path

/-- Where the path that a text denotes begins. -/
def startOf : List Char → PathStart
  | '/' :: '/' :: '/' :: _ => .root
  | '/' :: '/' :: _ => .secondRoot
  | '/' :: _ => .root
  | _ => .here

/-- The path that a text denotes. -/
def of (s : String) : Path :=
  { start := startOf s.toList
    names := ((Text.pieces '/' s.toList).map String.ofList).filter fun name =>
      name ≠ "" ∧ name ≠ "." }

/-- The text of a path; a single dot stands for the current directory. -/
def text (p : Path) : String :=
  let names := String.intercalate "/" p.names
  match p.start with
  | .here => if p.names.isEmpty then "." else names
  | .root => "/" ++ names
  | .secondRoot => "//" ++ names

/-- Whether a path can name nothing at all, because the null character is in it. -/
def isImpossible (p : Path) : Bool :=
  p.names.any fun name => name.toList.contains '\x00'

end Path

end Daybook
