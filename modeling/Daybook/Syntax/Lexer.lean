import Daybook.Syntax.Token
import Daybook.Source.Notice

/-!
From text to tokens.

`Piece.split` cuts a text into pieces without regard to positions: runs of white space, tokens, and
runs that begin no token. Such a run ends where white space or a token begins. Nothing is lost
(`flatMap_chars_split`), so positions follow from the widths of the pieces before: `Lexed.of` places
every token and every unreadable run at its span.
-/

namespace Daybook

/-- A piece of a text. -/
inductive Piece where
  | blank (text : List Char)
  | token (t : Token)
  | unreadable (text : List Char)
  deriving DecidableEq

namespace Piece

/-- What a piece is written as. -/
def chars : Piece → List Char
  | .blank text => text
  | .token t => t.chars
  | .unreadable text => text

/-- Whether white space or a token begins here. -/
def canBegin (cs : List Char) : Bool :=
  match cs with
  | [] => false
  | c :: _ => Text.isBlank c || (Token.take? cs).isSome

/-- The characters up to the next place where white space or a token begins, and the rest. -/
def skip : List Char → List Char × List Char
  | [] => ([], [])
  | c :: cs => if canBegin (c :: cs) then ([], c :: cs) else (c :: (skip cs).1, (skip cs).2)

/-- What is skipped and what is left are the text. -/
theorem skip_append (cs : List Char) : (skip cs).1 ++ (skip cs).2 = cs := by
  induction cs with
  | nil => rfl
  | cons c cs ih => simp only [skip]; split <;> simp [ih]

/-- The pieces of a text, in order. -/
def split : List Char → List Piece
  | [] => []
  | c :: cs =>
    if Text.isBlank c then
      .blank (c :: cs.takeWhile Text.isBlank) :: split (cs.dropWhile Text.isBlank)
    else
      match _ : Token.take? (c :: cs) with
      | some (t, rest) => .token t :: split rest
      | none => .unreadable (c :: (skip cs).1) :: split (skip cs).2
termination_by cs => cs.length
decreasing_by
  · have := (List.dropWhile_suffix (l := cs) Text.isBlank).length_le
    simp only [List.length_cons]; omega
  · exact Token.length_lt_of_take? ‹_›
  · have := congrArg List.length (skip_append cs)
    simp only [List.length_append] at this
    simp only [List.length_cons]; omega

/-- **Nothing is lost**: the pieces of a text make up the text. -/
theorem flatMap_chars_split (cs : List Char) : (split cs).flatMap chars = cs := by
  fun_induction split cs with
  | case1 => rfl
  | case2 c cs _ ih => simp [chars, ih]
  | case3 c cs _ t rest htake ih => simpa [chars, ih] using (Token.take?_eq_some htake).1
  | case4 c cs _ _ ih => simp [chars, ih, skip_append]

end Piece

/-- A run of text that begins no token. -/
structure LexError where
  span : Span
  found : String
  deriving DecidableEq

namespace LexError

/-- Whether the run begins with a quote, so that a string lacks its end. -/
def isOpenString (e : LexError) : Bool :=
  e.found.toList.head? = some '"'

/-- The text of the message. -/
def message (e : LexError) : String :=
  if e.isOpenString then "unterminated string"
  else "unrecognized input " ++ Text.quoted e.found

/-- What could have stood there. -/
def expected (e : LexError) : String :=
  if e.isOpenString then "closing `\"`"
  else "a date, number, currency, account, movement or string"

/-- The error as a notice. -/
def notice (e : LexError) : Notice :=
  { message := e.message, span := some e.span, details := none, found := some e.found,
    expected := some e.expected }

end LexError

/-- The tokens and the errors of a source, each in order. -/
structure Lexed where
  tokens : List (Spanned Token)
  errors : List LexError
  deriving DecidableEq

namespace Lexed

/-- Whether all of the source could be read. -/
def ok (l : Lexed) : Bool := l.errors.isEmpty

/-- The pieces with the span of each, where the first one starts at the given offset. -/
def place (offset : Nat) : List Piece → List (Spanned Piece)
  | [] => []
  | piece :: pieces =>
    let stop := offset + Text.Utf8.width piece.chars
    ⟨piece, ⟨offset, stop, Nat.le_add_right _ _⟩⟩ :: place stop pieces

/-- The token that a piece is. -/
def token? : Spanned Piece → Option (Spanned Token)
  | ⟨.token t, span⟩ => some ⟨t, span⟩
  | _ => none

/-- The error that a piece is. -/
def error? : Spanned Piece → Option LexError
  | ⟨.unreadable text, span⟩ => some ⟨span, String.ofList text⟩
  | _ => none

/-- The tokens and errors of a source. -/
def of (source : String) : Lexed :=
  let pieces := place 0 (Piece.split source.toList)
  { tokens := pieces.filterMap token?, errors := pieces.filterMap error? }

end Lexed

end Daybook
