import Daybook.Source.Span

/-!
Lines and columns.

`Location.of` maps a span to the line it starts on. Lines and columns count from one, columns in
characters. A span that starts or ends behind the source is cut there, and only the part of the span
on its first line is underlined.
-/

namespace Daybook

/-- Where in the source, and on which line of text, a span starts. -/
structure Location where
  line : Nat
  column : Nat
  lineText : String
  /-- How many characters of the line are underlined, at least one. -/
  underline : Nat
  /-- Whether the span goes on after the line. -/
  continues : Bool
  deriving DecidableEq

namespace Location

/-- The byte that ends a line. -/
def newline : UInt8 := 10

/-- The bytes after the last newline. -/
def afterLastNewline (bytes : List UInt8) : List UInt8 :=
  (bytes.reverse.takeWhile (· ≠ newline)).reverse

/-- The bytes before the first newline. -/
def beforeNewline (bytes : List UInt8) : List UInt8 :=
  bytes.takeWhile (· ≠ newline)

/-- The number of characters that bytes are shown as. -/
def shownWidth (bytes : List UInt8) : Nat :=
  (Text.Utf8.decode bytes).length

/-- The location of a span. -/
def of (source : String) (span : Span) : Location :=
  let bytes := Text.Utf8.encode source.toList
  let start := min span.start bytes.length
  let stop := min (max span.stop start) bytes.length
  let before := bytes.take start
  let head := afterLastNewline before
  let tail := beforeNewline (bytes.drop start)
  { line := before.count newline + 1
    column := shownWidth head + 1
    lineText := String.ofList (Text.Utf8.decode (head ++ tail))
    underline := max 1 (shownWidth (tail.take (stop - start)))
    continues := start + tail.length < stop }

end Location

end Daybook
