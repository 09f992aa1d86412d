import Daybook.Yaml.Token

/-!
Why a document cannot be read.

A flaw is a cause, with the places that matter. In words it is what is wrong and where, and before that
what was being read and where that began, unless it is the same place.
-/

namespace Daybook.Yaml

/-- What is wrong with a document. `start` is where the part begins that cannot be read. -/
inductive Flaw where
  /-- A character that no document may hold, with the number of characters before it. -/
  | forbidden (code index : Nat)
  /-- What has to be a key, because of its indentation, has no colon after it. -/
  | noColon (start place : Mark)
  | misplacedItem (place : Mark)
  | misplacedKey (place : Mark)
  | misplacedValue (place : Mark)
  /-- No token begins with the character. -/
  | noToken (c : Char) (place : Mark)
  /-- The document ends inside quotes. -/
  | openQuote (start place : Mark)
  /-- A document separator stands inside quotes. -/
  | separatorInQuote (start place : Mark)
  /-- The character after a backslash has no meaning. -/
  | unknownEscape (c : Char) (start place : Mark)
  /-- An escape has too few digits. -/
  | shortEscape (digits : Nat) (c : Char) (start place : Mark)
  /-- A token stands where a value has to begin. -/
  | noNode (inFlow : Bool) (found : TokenKind) (place : Mark)
  /-- A token stands where a block list or mapping goes on or ends. -/
  | noBlockEnd (mapping : Bool) (found : TokenKind) (start place : Mark)
  /-- A token stands where a list in brackets or a mapping in braces goes on or ends. -/
  | noFlowEnd (mapping : Bool) (found : TokenKind) (start place : Mark)
  /-- A token stands behind the document. -/
  | noDocumentStart (found : TokenKind) (place : Mark)
  | secondDocument (start place : Mark)
  /-- A scalar stands for something that only keys may be. -/
  | onlyAsKey (tag : String) (place : Mark)
  /-- A key is a list or a mapping. -/
  | badKey (start place : Mark)
  /-- What is to be merged into a mapping is none. -/
  | badMerge (inList : Bool) (found : String) (start place : Mark)
  /-- Something that this reader does not know: directives, anchors, aliases, tags and block scalars. -/
  | unsupported (place : Mark)
  deriving DecidableEq

/-- A flaw in words, with the places. -/
structure FlawReport where
  context : Option (String × Option Mark)
  problem : String
  place : Mark

namespace FlawReport

/-- A report without context. -/
def alone (problem : String) (place : Mark) : FlawReport := ⟨none, problem, place⟩

/-- A report on something that begins at `start`. -/
def inside (context : String) (start : Mark) (problem : String) (place : Mark) : FlawReport :=
  ⟨some (context, some start), problem, place⟩

/-- The lines of a report. -/
def lines (r : FlawReport) (fileName : String) : List String :=
  let context := match r.context with
    | none => []
    | some (context, start) =>
      context :: ((start.filter (· ≠ r.place)).map (·.inWords fileName)).toList
  context ++ [r.problem, r.place.inWords fileName]

end FlawReport

namespace Flaw

/-- What is said of a token that should not stand where it does. -/
def expected (what verb : String) (found : TokenKind) : String :=
  "expected " ++ what ++ ", but " ++ verb ++ " " ++ Text.quoted found.name

/-- A character as reports show it. -/
def shown (c : Char) : String :=
  Text.quoted (String.singleton c)

/-- The report on a flaw, unless a character is forbidden. -/
def report? : Flaw → Option FlawReport
  | .forbidden .. => none
  | .noColon start place =>
    some (.inside "while scanning a simple key" start "could not find expected ':'" place)
  | .misplacedItem place => some (.alone "sequence entries are not allowed here" place)
  | .misplacedKey place => some (.alone "mapping keys are not allowed here" place)
  | .misplacedValue place => some (.alone "mapping values are not allowed here" place)
  | .noToken c place =>
    some ⟨some ("while scanning for the next token", none),
      "found character " ++ shown c ++ " that cannot start any token", place⟩
  | .openQuote start place =>
    some (.inside "while scanning a quoted scalar" start "found unexpected end of stream" place)
  | .separatorInQuote start place =>
    some (.inside "while scanning a quoted scalar" start "found unexpected document separator" place)
  | .unknownEscape c start place =>
    some (.inside "while scanning a double-quoted scalar" start
      ("found unknown escape character " ++ shown c) place)
  | .shortEscape digits c start place =>
    some (.inside "while scanning a double-quoted scalar" start
      (s!"expected escape sequence of {digits} hexadecimal numbers, but found " ++ shown c) place)
  | .noNode inFlow found place =>
    some (.inside ("while parsing a " ++ (if inFlow then "flow" else "block") ++ " node") place
      (expected "the node content" "found" found) place)
  | .noBlockEnd mapping found start place =>
    some (.inside ("while parsing a block " ++ if mapping then "mapping" else "collection") start
      (expected "<block end>" "found" found) place)
  | .noFlowEnd mapping found start place =>
    some (.inside ("while parsing a flow " ++ if mapping then "mapping" else "sequence") start
      (expected (if mapping then "',' or '\x7d'" else "',' or ']'") "got" found) place)
  | .noDocumentStart found place => some (.alone (expected "'<document start>'" "found" found) place)
  | .secondDocument start place =>
    some (.inside "expected a single document in the stream" start "but found another document" place)
  | .onlyAsKey tag place =>
    some (.alone ("could not determine a constructor for the tag " ++ Text.quoted tag) place)
  | .badKey start place => some (.inside "while constructing a mapping" start "found unhashable key" place)
  | .badMerge inList found start place =>
    some (.inside "while constructing a mapping" start
      ("expected a mapping " ++ (if inList then "" else "or list of mappings ") ++ "for merging, but found "
        ++ found) place)
  | .unsupported place => some (.alone "could not read the document" place)

/-- What is wrong with a document in a file, and where. -/
def message (fileName : String) : Flaw → String
  | .forbidden code index =>
    "unacceptable character #x" ++ String.ofList (Text.hexDigits 4 code)
      ++ ": special characters are not allowed\n  in \"" ++ fileName ++ s!"\", position {index}"
  | flaw =>
    match flaw.report? with
    | some report => String.intercalate "\n" (report.lines fileName)
    | none => ""

end Flaw

/-- Why a document has no value. -/
inductive Failure where
  | flaw (flaw : Flaw)
  /-- It names a number, a date or a character that there is not. -/
  | impossibleScalar
  /-- It names a character by a number that no word of the machine holds. -/
  | hugeCharacter
  deriving DecidableEq

end Daybook.Yaml
