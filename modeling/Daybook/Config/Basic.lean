import Daybook.Text.Capitals
import Daybook.Validation.Outcome

/-!
Configuration.

A configuration says which checks run, whether they stop at the first failure, and from which level on
log records are written. It is made from a document, whose keys may be missing and must have values of
the right kinds. Unknown keys are reported before anything else, the first one in order.
-/

namespace Daybook

/-- The levels that a configuration may name. -/
inductive LogLevel where
  | debug
  | info
  | warning
  | error
  | critical
  deriving DecidableEq

namespace LogLevel

/-- All levels. -/
def all : List LogLevel := [.debug, .info, .warning, .error, .critical]

/-- The name of a level. -/
def name : LogLevel → String
  | .debug => "DEBUG"
  | .info => "INFO"
  | .warning => "WARNING"
  | .error => "ERROR"
  | .critical => "CRITICAL"

/-- The number of a level. -/
def number : LogLevel → Int
  | .debug => 10
  | .info => 20
  | .warning => 30
  | .error => 40
  | .critical => 50

/-- The level with the given name in capitals. -/
def ofName? (name : String) : Option LogLevel :=
  all.find? fun level => level.name = name

end LogLevel

/-- A configuration. -/
structure Config where
  checks : List Check
  failFast : Bool
  logLevel : LogLevel
  deriving DecidableEq

/-- What is wrong with a document that should be a configuration. -/
inductive ConfigError where
  /-- The document is no mapping. -/
  | notMapping (kindName : String)
  | unknownKey (key : Value)
  /-- There are several unknown keys, and they have no order. -/
  | unorderedKeys
  /-- The unknown key to report is an integer with more digits than can be written. -/
  | unwritableKey
  /-- Any of the unknown keys may be reported, because one of them is no number and comes neither before nor after
  others; and one of them cannot be written. -/
  | unsettledKey
  | badChecks
  | unknownCheck (e : UnknownCheck)
  | badFailFast
  | badLogLevel

namespace ConfigError

/-- The error as reports name it. Keys without order have no such report, nor has a key that cannot be written, and
where it is not settled which key that is, there need not be one. -/
def fault? : ConfigError → Option Fault
  | .notMapping kindName =>
    some (.invalidConfig (.text "<root>") (.text ("expected a mapping, got " ++ kindName)))
  | .unknownKey key => some (.invalidConfig key (.text "unknown configuration key"))
  | .unorderedKeys => none
  | .unwritableKey => none
  | .unsettledKey => none
  | .badChecks => some (.invalidConfig (.text "checks") (.text "expected a list of check names"))
  | .unknownCheck e => some e.fault
  | .badFailFast => some (.invalidConfig (.text "fail_fast") (.text "expected true or false"))
  | .badLogLevel =>
    some (.invalidConfig (.text "log_level")
      (.text ("expected one of " ++ String.intercalate ", " (LogLevel.all.map LogLevel.name))))

end ConfigError

namespace Config

-- Powers are those of the core library, whatever else is in scope.
attribute [local instance (high)] instPowNat

/-- The configuration of whoever gives none: all checks, up to the first failure, and warnings. -/
def default : Config := ⟨Check.all, true, .warning⟩

/-- The keys of a configuration. -/
def knownKeys : List String := ["checks", "fail_fast", "log_level"]

/-- Whether a key is one of a configuration. -/
def isKnown : Value → Bool
  | .text key => knownKeys.contains key
  | _ => false

/-- Whether a key comes before another one. Keys are scalars: numbers are compared with numbers, texts with texts by
their code points, bytes with bytes, dates with dates, and times with times of the same sort; other keys not at all. -/
def keyBefore? (a b : Value) : Option Bool :=
  match a, b with
  | .bytes a, .bytes b => some (decide (a < b))
  | .date a, .date b => some (decide (a < b))
  | .dateTime a, .dateTime b => some (decide (a < b))
  | .zonedTime a, .zonedTime b => some (decide (a < b))
  | .real x, .real y => some (x < y)
  | a, b =>
    match a.codes?, b.codes? with
    | some s, some t => some (decide (s < t))
    | _, _ => numberBefore? a b
where
  /-- The order of numbers; infinity lies beyond all of them, and what is no number before none. -/
  numberBefore? (a b : Value) : Option Bool :=
    match a.number?, b.number?, a, b with
    | some p, some q, _, _ => some (decide (p < q))
    | none, some _, .real x, _ => some (x < 0)
    | some _, none, _, .real y => some (0 < y)
    | _, _, _, _ => none

/-- The least of some keys, if they can be compared with each other. What is no number is not less than any key, nor
any key less than it, so with such a key among them there may be several that can be called the least. -/
def leastKey? (least : Value) : List Value → Option Value
  | [] => some least
  | key :: keys => do
    let before ← keyBefore? key least
    leastKey? (if before then key else least) keys

/-- Whether a key can be written: an integer may have too many digits for that. -/
def isWritable : Value → Bool
  | .integer n => decide (n.natAbs < 10 ^ Numeral.digitLimit)
  | _ => true

/-- Whether a key is what is no number and has no place in the order. -/
def isUndefined : Value → Bool
  | .real x => x.isNaN
  | _ => false

/-- Whether it depends on nothing but the keys whether the one that is reported can be written. -/
def isSettled (keys : List Value) : Bool :=
  keys.all isWritable || !keys.any isUndefined

/-- The keys that a configuration does not have, each once. -/
def unknownKeys (entries : List (Value × Value)) : List Value :=
  Value.distinct ((entries.map (·.1)).filter fun key => !isKnown key)

/-- The value of a key, of which the last one counts. -/
def lookup? (entries : List (Value × Value)) (key : String) : Option Value :=
  (entries.reverse.find? fun (k, _) => k.text? = some key).map (·.2)

/-- The checks that a document names, in a list of nothing but texts. -/
def checksOf : Option Value → Except ConfigError (List Check)
  | none => .ok Check.all
  | some (.list items) =>
    if items.all fun item => item.codes?.isSome then
      (Check.select Check.ofValue? items).mapError fun name => .unknownCheck ⟨name⟩
    else .error .badChecks
  | some _ => .error .badChecks

/-- Whether a document wants checking to stop at the first failure. -/
def failFastOf : Option Value → Except ConfigError Bool
  | none => .ok default.failFast
  | some (.bool b) => .ok b
  | some _ => .error .badFailFast

/-- The level that a document names, in letters of any case. -/
def logLevelOf : Option Value → Except ConfigError LogLevel
  | none => .ok default.logLevel
  | some (.text name) =>
    match LogLevel.ofName? (Text.capitals name) with
    | some level => .ok level
    | none => .error .badLogLevel
  | some _ => .error .badLogLevel

/-- The error over some unknown keys, of which the least one is reported. -/
def unknownKeyError (key : Value) (keys : List Value) : ConfigError :=
  match leastKey? key keys with
  | none => .unorderedKeys
  | some least =>
    if isSettled (key :: keys) then if isWritable least then .unknownKey least else .unwritableKey
    else .unsettledKey

/-- The configuration that a mapping with the given entries describes. -/
def ofEntries (entries : List (Value × Value)) : Except ConfigError Config := do
  match unknownKeys entries with
  | key :: keys => .error (unknownKeyError key keys)
  | [] =>
    let checks ← checksOf (lookup? entries "checks")
    let failFast ← failFastOf (lookup? entries "fail_fast")
    let logLevel ← logLevelOf (lookup? entries "log_level")
    return { checks, failFast, logLevel }

/-- The configuration that a document describes. -/
def ofValue : Value → Except ConfigError Config
  | .null => .ok default
  | .mapping entries => ofEntries entries
  | v => .error (.notMapping v.kindName)

/-- The document that describes a configuration. -/
def toValue (c : Config) : Value :=
  .mapping
    [ (.text "checks", .list (c.checks.map fun check => .text check.key)),
      (.text "fail_fast", .bool c.failFast),
      (.text "log_level", .text c.logLevel.name) ]

end Config

end Daybook
