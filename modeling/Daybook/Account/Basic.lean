import Daybook.Account.Kind
import Daybook.Data.Fault
import Daybook.Text.Capitals

/-!
Accounts.

An account is a kind and a path of one to three segments below it; a segment is a lower-case letter of
ASCII followed by such letters and underscores. The type holds nothing else. Accounts are ordered by
their kind, in the order of reports, and then by their segments.
-/

namespace Daybook

/-- Why there is no such account. -/
inductive AccountFlaw where
  | unknownKind
  | noSegment
  | tooManySegments
  | badSegment (segment : String)
  deriving DecidableEq

/-- The greatest number of segments. -/
def maxSegments : Nat := 3

namespace AccountFlaw

/-- The reason in words. -/
def reason : AccountFlaw → String
  | .unknownKind => "unknown account kind"
  | .noSegment => "an account needs at least one segment"
  | .tooManySegments =>
    s!"accounts may contain at most {maxSegments} segments beyond their kind"
  | .badSegment segment => "invalid segment " ++ Text.quoted segment

end AccountFlaw

/-- A path that is no account, with the reason. -/
structure AccountError where
  path : String
  flaw : AccountFlaw
  deriving DecidableEq

namespace AccountError

/-- The error as reports name it. -/
def fault (e : AccountError) : Fault :=
  .invalidAccount (.text e.path) (.text e.flaw.reason)

end AccountError

/-- Whether a text is a segment of an account. -/
def isSegment : List Char → Bool
  | [] => false
  | c :: cs => c.isLower && cs.all fun c => c.isLower || c = '_'

/-- A kind with a path below it. -/
structure Account where
  kind : AccountKind
  segments : List String
  ne_nil : segments ≠ []
  length_le : segments.length ≤ maxSegments
  isSegment : ∀ s ∈ segments, isSegment s.toList = true
  deriving DecidableEq

namespace Account

/-- The words of a path with colons between them. -/
def joinPath (words : List String) : String :=
  String.intercalate ":" words

/-- The account with the given kind and segments. -/
def of? (kind : AccountKind) (segments : List String) : Except AccountError Account :=
  let path := joinPath (kind.keyword :: segments)
  if hne : segments = [] then .error ⟨path, .noSegment⟩
  else if hle : maxSegments < segments.length then .error ⟨path, .tooManySegments⟩
  else
    match h : segments.find? fun s => !Daybook.isSegment s.toList with
    | some segment => .error ⟨path, .badSegment segment⟩
    | none => .ok
        { kind, segments, ne_nil := hne, length_le := by omega
          isSegment := by simpa using h }

/-- The account whose kind is given by a word. -/
def ofKeyword (word : String) (segments : List String) : Except AccountError Account :=
  match AccountKind.ofKeyword? word with
  | some kind => of? kind segments
  | none => .error ⟨word, .unknownKind⟩

/-- The words of a path, which stand between colons. -/
def splitPath (cs : List Char) : List Char × List (List Char) :=
  match cs with
  | [] => ([], [])
  | c :: cs =>
    let (word, words) := splitPath cs
    if c = ':' then ([], word :: words) else (c :: word, words)

/-- The account that a path names. -/
def parse (path : String) : Except AccountError Account :=
  let (word, words) := splitPath path.toList
  ofKeyword (String.ofList word) (words.map String.ofList)

/-- Why an account cannot be made of given values. -/
inductive OfValuesError where
  | account (e : AccountError)
  /-- The segments are no list of texts. -/
  | segmentKind
  deriving DecidableEq

/-- The account with a kind and segments given by values; the kind is looked at first. -/
def ofValues (kind segments : Value) : Except OfValuesError Account := do
  let some kind := kind.text?.bind AccountKind.ofKeyword?
    | .error (.account ⟨kind.plain, .unknownKind⟩)
  let some words := segments.items?.bind fun items => items.mapM Value.text?
    | .error .segmentKind
  (of? kind words).mapError .account

/-- The path of an account. -/
def path (a : Account) : String :=
  joinPath (a.kind.keyword :: a.segments)

/-- What a unit moved in the given direction adds to the natural balance. -/
def sign (a : Account) (direction : Direction) : Int :=
  a.kind.sign direction

/-- An account as messages for developers show it. -/
def literal (a : Account) : String :=
  let kind := "<AccountKind." ++ Text.capitals a.kind.keyword ++ ": "
    ++ Text.quoted a.kind.keyword ++ ">"
  recordLiteral "Account"
    [("kind", kind), ("segments", (Value.tuple (a.segments.map .text)).literal)]

/-- An account as a value, which is shown as its path. -/
def toValue (a : Account) : Value :=
  .other "Account" a.path a.literal

/-! ## Order -/

/-- Kinds first, then segments. -/
def before (a b : Account) : Bool :=
  a.kind.rank < b.kind.rank || (a.kind.rank = b.kind.rank && decide (a.segments < b.segments))

instance : LT Account := ⟨fun a b => a.before b⟩

instance : LE Account := ⟨fun a b => ¬ b.before a⟩

instance (a b : Account) : Decidable (a < b) := inferInstanceAs (Decidable (a.before b = true))

instance (a b : Account) : Decidable (a ≤ b) := inferInstanceAs (Decidable (¬ b.before a = true))

/-- Accounts in order. -/
def sort (accounts : List Account) : List Account :=
  accounts.mergeSort fun a b => decide (a ≤ b)

/-- The accounts of a list, each once, in order. -/
def sorted (accounts : List Account) : List Account :=
  sort accounts.eraseDups

end Account

end Daybook
