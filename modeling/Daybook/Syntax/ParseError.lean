import Daybook.Account.Basic
import Daybook.Syntax.Lexer

/-!
What can be wrong with a statement.

The first thing that is wrong is reported, as a `Complaint` with the span it is about and what was
found there. The wording is a function of the complaint.
-/

namespace Daybook

/-- What a statement has at a place. -/
inductive Wanted where
  | year
  | hyphen
  | month
  | day
  | keyword
  | account
  | colon
  | segment
  | currency
  | amount
  | description
  deriving DecidableEq

namespace Wanted

/-- The words for it in a message. -/
def phrase : Wanted → String
  | .year => "a date (YYYY-MM-DD)"
  | .hyphen => "'-' between date components"
  | .month => "a month"
  | .day => "a day"
  | .keyword => "a statement keyword"
  | .account => "an account"
  | .colon => "':' after the account kind"
  | .segment => "an account segment"
  | .currency => "a currency (3 to 5 uppercase letters)"
  | .amount => "an amount"
  | .description => "a quoted description"

/-- The words for it as what is expected: of a separator the symbol alone. -/
def expected : Wanted → String
  | .hyphen => "'-'"
  | .colon => "':'"
  | wanted => wanted.phrase

end Wanted

/-- The parts of a date. -/
inductive DatePart where
  | year
  | month
  | day
  deriving DecidableEq

namespace DatePart

/-- The word for a part. -/
def name : DatePart → String
  | .year => "year"
  | .month => "month"
  | .day => "day"

/-- The least and the greatest value of a part. -/
def bounds : DatePart → Nat × Nat
  | .year => (1000, 3000)
  | .month => (1, 12)
  | .day => (1, 31)

end DatePart

/-- What is wrong with a statement. -/
inductive Complaint where
  /-- Another token stands where this was wanted. -/
  | unexpected (wanted : Wanted)
  /-- The source ends where this was wanted. -/
  | ended (wanted : Wanted)
  | unknownKeyword (name : String)
  | unknownKind (name : String)
  | tooManySegments
  | noMovement
  | negativeMovement
  /-- A part of a date is no whole number within its bounds. -/
  | badDatePart (part : DatePart) (text : String)
  /-- The calendar has no such date. -/
  | noSuchDate (text : String)
  deriving DecidableEq

namespace Complaint

/-- The text of the message. -/
def message : Complaint → String
  | .unexpected wanted => "expected " ++ wanted.phrase
  | .ended wanted => "unexpected end of input, expected " ++ wanted.phrase
  | .unknownKeyword name => "unknown statement keyword " ++ Text.quoted name
  | .unknownKind name => "unknown account kind " ++ Text.quoted name
  | .tooManySegments => AccountFlaw.tooManySegments.reason ++ "."
  | .noMovement => "transactions require at least one movement"
  | .negativeMovement => "movement amounts may not be negative"
  | .badDatePart part text => part.name ++ " " ++ text ++ " is not valid"
  | .noSuchDate text => text ++ " is not a valid calendar date"

/-- What should have been there. -/
def expected : Complaint → String
  | .unexpected wanted => wanted.expected
  | .ended wanted => wanted.expected
  | .unknownKeyword _ => "open, balance or transaction"
  | .unknownKind _ => String.intercalate ", " (AccountKind.all.map AccountKind.keyword)
  | .tooManySegments => s!"at most {maxSegments} segments"
  | .noMovement => "a movement line starting with '<' or '>'"
  | .negativeMovement => "an unsigned amount"
  | .badDatePart part _ => s!"a {part.name} between {part.bounds.1} and {part.bounds.2}"
  | .noSuchDate _ => "a date that exists in the calendar"

end Complaint

/-- A statement that could not be read. -/
structure ParseError where
  span : Span
  complaint : Complaint
  found : String
  deriving DecidableEq

namespace ParseError

/-- The error as a notice. -/
def notice (e : ParseError) : Notice :=
  { message := e.complaint.message, span := some e.span, details := none, found := some e.found,
    expected := some e.complaint.expected }

end ParseError

end Daybook
