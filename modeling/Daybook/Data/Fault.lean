import Daybook.Data.Value

/-!
Errors as reports name them.

Every error that a caller can be handed has a name, a code that stays the same when the wording
changes, a message, and named arguments. The modules have error types of their own that say what went
wrong in their terms; `Fault` is what all of them are turned into when they are reported.
-/

namespace Daybook

/-- The families of errors, each with a general error of its own. -/
inductive Fault.Family where
  | any
  | currency
  | account
  | source
  | validation
  | config
  deriving DecidableEq

/-- An error with its arguments. -/
inductive Fault where
  | invalidCurrency (currency : Value)
  | currencyMismatch (left right operation : Value)
  | invalidAccount (path reason : Value)
  | sourceRejected (sourceName : Value) (diagnostics : List Value)
  | validationFailed (checkName : Value) (traces : List Value)
  | invalidConfig (key reason : Value)
  | unknownCheck (checkKey : Value) (available : List Value)
  /-- The general error of a family. -/
  | general (family : Fault.Family) (arguments : List Value)
  /-- An error that is not one of the library's, which has no code. -/
  | foreign (name : String) (arguments : List Value)

namespace Fault

/-- The name of the general error of a family. -/
def Family.name : Family → String
  | .any => "HortelaError"
  | .currency => "CurrencyError"
  | .account => "AccountError"
  | .source => "SourceError"
  | .validation => "ValidationError"
  | .config => "ConfigError"

/-- Its code. -/
def Family.code : Family → String
  | .any => "HORTELA_ERROR"
  | .currency => "CURRENCY_ERROR"
  | .account => "ACCOUNT_ERROR"
  | .source => "SOURCE_ERROR"
  | .validation => "VALIDATION_ERROR"
  | .config => "CONFIG_ERROR"

/-- All families. -/
def Family.all : List Family := [.any, .currency, .account, .source, .validation, .config]

/-- The name of an error. -/
def name : Fault → String
  | .invalidCurrency _ => "InvalidCurrencyError"
  | .currencyMismatch .. => "CurrencyMismatchError"
  | .invalidAccount .. => "InvalidAccountError"
  | .sourceRejected .. => "SourceRejectedError"
  | .validationFailed .. => "ValidationFailedError"
  | .invalidConfig .. => "InvalidConfigError"
  | .unknownCheck .. => "UnknownCheckError"
  | .general family _ => family.name
  | .foreign name _ => name

/-- The code of an error. -/
def code? : Fault → Option String
  | .invalidCurrency _ => some "INVALID_CURRENCY"
  | .currencyMismatch .. => some "CURRENCY_MISMATCH"
  | .invalidAccount .. => some "INVALID_ACCOUNT"
  | .sourceRejected .. => some "SOURCE_REJECTED"
  | .validationFailed .. => some "VALIDATION_FAILED"
  | .invalidConfig .. => some "INVALID_CONFIG"
  | .unknownCheck .. => some "UNKNOWN_CHECK"
  | .general family _ => some family.code
  | .foreign .. => none

/-- The message of an error that only has arguments. -/
def argumentText : List Value → String
  | [] => ""
  | [argument] => argument.plain
  | arguments => (Value.tuple arguments).literal

/-- The text of the message. -/
def message : Fault → String
  | .invalidCurrency currency => "Invalid currency tag: " ++ currency.literal
  | .currencyMismatch left right operation =>
    "Cannot " ++ operation.plain ++ " Money with different currencies: " ++ left.plain ++ " and "
      ++ right.plain
  | .invalidAccount path reason => "Invalid account " ++ path.literal ++ ": " ++ reason.plain
  | .sourceRejected sourceName diagnostics =>
    sourceName.plain ++ s!": {diagnostics.length} error(s) while reading source"
  | .validationFailed checkName traces =>
    "Validation " ++ checkName.literal ++ s!" failed with {traces.length} trace(s)"
  | .invalidConfig key reason =>
    "Invalid configuration for " ++ key.literal ++ ": " ++ reason.plain
  | .unknownCheck checkKey available =>
    "Unknown check " ++ checkKey.literal ++ "; available: "
      ++ commaSeparated (available.map Value.plain)
  | .general _ arguments => argumentText arguments
  | .foreign _ arguments => argumentText arguments

/-- The arguments by name. -/
def attributes : Fault → List (String × Value)
  | .invalidCurrency currency => [("currency", currency)]
  | .currencyMismatch left right operation =>
    [("left", left), ("right", right), ("operation", operation)]
  | .invalidAccount path reason => [("path", path), ("reason", reason)]
  | .sourceRejected sourceName diagnostics =>
    [("source_name", sourceName), ("diagnostics", .tuple diagnostics)]
  | .validationFailed checkName traces =>
    [("check_name", checkName), ("traces", .tuple traces)]
  | .invalidConfig key reason => [("key", key), ("reason", reason)]
  | .unknownCheck checkKey available =>
    [("check_key", checkKey), ("available", .tuple available)]
  | .general .. => []
  | .foreign .. => []

/-- The error with the given name and arguments, if there is one that takes them. -/
def ofName? (name : String) (arguments : List Value) : Option Fault :=
  match name, arguments with
  | "InvalidCurrencyError", [currency] => some (.invalidCurrency currency)
  | "CurrencyMismatchError", [left, right, operation] =>
    some (.currencyMismatch left right operation)
  | "InvalidAccountError", [path, reason] => some (.invalidAccount path reason)
  | "SourceRejectedError", [sourceName, diagnostics] =>
    diagnostics.items?.map (.sourceRejected sourceName)
  | "ValidationFailedError", [checkName, traces] => traces.items?.map (.validationFailed checkName)
  | "InvalidConfigError", [key, reason] => some (.invalidConfig key reason)
  | "UnknownCheckError", [checkKey, available] =>
    (available.items?.filter fun names => names.all fun v => v.text?.isSome).map
      (.unknownCheck checkKey)
  | "ValueError", arguments => some (.foreign "ValueError" arguments)
  | "RuntimeError", arguments => some (.foreign "RuntimeError" arguments)
  | name, arguments =>
    (Family.all.find? fun family => family.name = name).map fun family => .general family arguments

end Fault

end Daybook
