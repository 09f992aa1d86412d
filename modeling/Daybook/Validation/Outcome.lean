import Daybook.Validation.Check

/-!
Running checks.

Checks are selected by name and run in their own order, whatever the order of the names. With
`failFast` nothing runs after the first check that finds something.
-/

namespace Daybook

/-- A name that no check has. -/
structure UnknownCheck where
  key : Value

namespace UnknownCheck

/-- The error as reports name it, with the names that there are. -/
def fault (e : UnknownCheck) : Fault :=
  .unknownCheck e.key (Check.all.map fun check => .text check.key)

end UnknownCheck

/-- The checks with the given names, each once and in their own order. The first name without a check
is refused. -/
def Check.select {κ : Type} (find? : κ → Option Check) (names : List κ) : Except κ (List Check) :=
  match names.find? fun name => (find? name).isNone with
  | some name => .error name
  | none =>
    let wanted := names.filterMap find?
    .ok (Check.all.filter wanted.contains)

/-- The checks with the given names; all of them if none are given. -/
def Check.resolve (names : Option (List String)) : Except UnknownCheck (List Check) :=
  match names with
  | none => .ok Check.all
  | some names => (Check.select Check.ofKey? names).mapError fun name => ⟨.text name⟩

/-- Why a value does not select checks. -/
inductive SelectionError where
  | unknown (e : UnknownCheck)
  /-- The value offers no names, or something that can be no name. -/
  | noNames

/-- The first items of a list that can be names, and whether that is all of them. -/
def Check.names (items : List Value) : List Value × Bool :=
  (items.takeWhile Value.isKey, items.all Value.isKey)

/-- The checks that a value selects: the null value selects all, any other one is gone through item
by item. -/
def Check.resolveValue : Value → Except SelectionError (List Check)
  | .null => .ok Check.all
  | v =>
    match v.items? with
    | none => .error .noNames
    | some items =>
      let (names, complete) := Check.names items
      match Check.select Check.ofValue? names with
      | .error name => .error (.unknown ⟨name⟩)
      | .ok checks => if complete then .ok checks else .error .noNames

/-- What a check found. -/
structure Outcome where
  check : Check
  findings : List Finding
  deriving DecidableEq

namespace Outcome

/-- Whether nothing was found. -/
def ok (o : Outcome) : Bool := o.findings.isEmpty

/-- The outcome of a check. -/
def of (l : Ledger) (check : Check) : Outcome := ⟨check, check.run l⟩

end Outcome

/-- The outcomes of the checks that ran, and the checks that did not. -/
structure Validation where
  outcomes : List Outcome
  skipped : List Check
  deriving DecidableEq

/-- A check that failed, with what it found. -/
structure ValidationFailed where
  check : Check
  findings : List Finding
  deriving DecidableEq

namespace ValidationFailed

/-- The error as reports name it. -/
def fault (e : ValidationFailed) : Fault :=
  .validationFailed (.text e.check.key) (e.findings.map fun f => .other "Trace" f.literal f.literal)

end ValidationFailed

namespace Validation

/-- Runs checks on a ledger. -/
def run (l : Ledger) (failFast : Bool) : List Check → Validation
  | [] => ⟨[], []⟩
  | check :: checks =>
    let outcome := Outcome.of l check
    if failFast && !outcome.ok then ⟨[outcome], checks⟩
    else
      let rest := run l failFast checks
      ⟨outcome :: rest.outcomes, rest.skipped⟩

/-- Whether no check found anything. -/
def ok (v : Validation) : Bool := v.outcomes.all Outcome.ok

/-- The outcomes of checks that found something. -/
def failures (v : Validation) : List Outcome := v.outcomes.filter fun o => !o.ok

/-- The first of them. -/
def firstFailure? (v : Validation) : Option Outcome := v.failures.head?

/-- Everything that was found. -/
def findings (v : Validation) : List Finding := v.outcomes.flatMap (·.findings)

/-- The outcome of the check with the given name, if it ran. -/
def outcome? (v : Validation) (name : String) : Option Outcome :=
  v.outcomes.find? fun o => o.check.key = name

/-- An error if a check found something. -/
def orFail (v : Validation) : Except ValidationFailed Validation :=
  match v.firstFailure? with
  | some o => .error ⟨o.check, o.findings⟩
  | none => .ok v

end Validation

/-- Runs the checks with the given names on a ledger. -/
def Ledger.validate (l : Ledger) (names : Option (List String)) (failFast : Bool) :
    Except UnknownCheck Validation := do
  let checks ← Check.resolve names
  return Validation.run l failFast checks

end Daybook
