import Daybook.Syntax.Production

/-!
From tokens to statements.

Statements are read one after the other. When one cannot be read, the error is recorded and reading
goes on at the next place, after its first token, that looks like the start of a statement: a whole
number, a hyphen, a number, a hyphen and a number. The outcomes are kept in the order in which they
arise.
-/

namespace Daybook

/-- Whether a statement seems to start here. -/
def startsStatement : Tokens → Bool
  | year :: hyphen₁ :: month :: hyphen₂ :: day :: _ =>
    year.value.isInteger && hyphen₁.value.isSeparator "-" && month.value.isNumber
      && hyphen₂.value.isSeparator "-" && day.value.isNumber
  | _ => false

/-- The tokens from the next place on where a statement seems to start. -/
def nextStart : Tokens → Tokens
  | [] => []
  | t :: ts => if startsStatement (t :: ts) then t :: ts else nextStart ts

/-- Skipping drops tokens from the front. -/
theorem nextStart_suffix (ts : Tokens) : nextStart ts <:+ ts := by
  induction ts with
  | nil => exact List.suffix_rfl
  | cons t ts ih =>
    unfold nextStart
    split
    · exact List.suffix_rfl
    · exact ih.trans (List.suffix_cons t ts)

/-- The error that a rejection is in a source whose tokens end at the given offset. -/
def Rejection.toError (stop : Nat) (r : Rejection) : ParseError :=
  match r.place with
  | some (span, found) => ⟨span, r.complaint, found⟩
  | none => ⟨Span.point stop, r.complaint, "end of input"⟩

/-- What was read from a list of tokens. -/
structure Parsed where
  /-- Statements and errors in the order in which they arose. -/
  outcomes : List (Except ParseError (Spanned Statement))
  /-- The token that ended all reading, if there was one. The tokens of a text contain none. -/
  fault : Option TokenFault

namespace Parsed

/-- One more outcome in front. -/
def push (outcome : Except ParseError (Spanned Statement)) (p : Parsed) : Parsed :=
  { p with outcomes := outcome :: p.outcomes }

/-- The statements of tokens without comments, of which the last one ends at `stop`. -/
def read (stop : Nat) : Tokens → Parsed
  | [] => ⟨[], none⟩
  | t :: ts =>
    match _ : Production.statement (t :: ts) with
    | .ok (statement, rest) => (read stop rest).push (.ok statement)
    | .error (.rejected r) => (read stop (nextStart ts)).push (.error (r.toError stop))
    | .error (.fault f) => ⟨[], some f⟩
termination_by ts => ts.length
decreasing_by
  · exact Production.length_lt_of_statement ‹_›
  · have := (nextStart_suffix ts).length_le
    simp only [List.length_cons]
    omega

/-- Where the last of the tokens ends. -/
def lastStop (ts : Tokens) : Nat :=
  match ts.getLast? with
  | some t => t.span.stop
  | none => 0

/-- The statements of a list of tokens, in which comments do not count. -/
def of (ts : Tokens) : Parsed :=
  let significant := ts.filter fun t => !t.value.isComment
  read (lastStop significant) significant

/-- The statements. -/
def statements (p : Parsed) : List (Spanned Statement) :=
  p.outcomes.filterMap Except.toOption

/-- The error that an outcome is. -/
def errorOf? : Except ParseError (Spanned Statement) → Option ParseError
  | .error e => some e
  | .ok _ => none

/-- The errors. -/
def errors (p : Parsed) : List ParseError :=
  p.outcomes.filterMap errorOf?

/-- Whether every statement could be read. -/
def ok (p : Parsed) : Bool := p.errors.isEmpty

end Parsed

end Daybook
