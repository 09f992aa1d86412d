import Daybook.Log.Event
import Daybook.Text.Capitals

/-!
Setting up where log records go.

The first call of `configure` after a reset gives one handler the form of records, sets the level and
attaches the handler; later calls do nothing. A call with a level that there is not attaches nothing, but
counts as the first call all the same, and its handler keeps the form.
-/

namespace Daybook

/-- Why a value is no level. -/
inductive LevelError where
  | unknownName (name : String)
  /-- The value is neither a name nor a number. -/
  | kind (name : String)
  deriving DecidableEq

/-- The level that a value stands for: a number, or a name in letters of any case. Text that is not all
characters is no name of a level. -/
def levelOfValue : Value → Except LevelError Int
  | .integer n => .ok n
  | .bool b => .ok (if b then 1 else 0)
  | .text name =>
    match levelsByName.find? fun entry => entry.1 = Text.capitals name with
    | some (_, level) => .ok level
    | none => .error (.unknownName name)
  | .brokenText codes => .error (.unknownName (Value.brokenText codes).plain)
  | v => .error (.kind v.kindName)

/-- What is set up: where records go, and from which level on they are made. `σ` names the handlers. -/
structure LogState (σ : Type) where
  configured : Bool
  handlers : List σ
  level : Int
  /-- Whether records also go to whoever collects those of all programs. -/
  propagates : Bool
  deriving DecidableEq

/-- What is set up, and which handlers were given the form in which records are written. They keep it when they are
detached. -/
structure LogSetup (σ : Type) extends LogState σ where
  formatted : List σ
  deriving DecidableEq

/-- A field of an event with a name that the record has of itself. -/
structure ReservedField where
  name : String
  deriving DecidableEq

namespace LogSetup

variable {σ : Type}

/-- The level of whoever sets none. -/
def inheritedLevel : Int := 30

/-- Nothing is set up. -/
def initial : LogSetup σ := ⟨⟨false, [], inheritedLevel, true⟩, []⟩

/-- Handlers with one more behind them, unless it is among them. -/
def including [DecidableEq σ] (handlers : List σ) (handler : σ) : List σ :=
  if handler ∈ handlers then handlers else handlers ++ [handler]

/-- Steps of setting up. What one has changed stays changed when a later one fails. -/
abbrev Step (σ : Type) := ExceptT LevelError (StateM (LogSetup σ))

namespace Step

/-- From now on `configure` does nothing. -/
def markConfigured : Step σ Unit :=
  modify fun s => { s with configured := true }

/-- Gives a handler the form in which records are written. -/
def setFormatter [DecidableEq σ] (handler : σ) : Step σ Unit :=
  modify fun s => { s with formatted := including s.formatted handler }

/-- Sets the level, which fails if there is no such level. -/
def setLevel (level : Value) : Step σ Unit :=
  match levelOfValue level with
  | .ok n => modify fun s => { s with level := n }
  | .error e => throw e

/-- Keeps records from whoever collects those of all programs. -/
def stopPropagation : Step σ Unit :=
  modify fun s => { s with propagates := false }

/-- Attaches a handler behind those that there are, unless it is one of them. -/
def addHandler [DecidableEq σ] (handler : σ) : Step σ Unit :=
  modify fun s => { s with handlers := including s.handlers handler }

/-- All steps in order. -/
def setUp [DecidableEq σ] (level : Value) (handler : σ) : Step σ Unit := do
  markConfigured
  setFormatter handler
  setLevel level
  stopPropagation
  addHandler handler

end Step

/-- Attaches a handler, unless this was tried before. -/
def configure [DecidableEq σ] (s : LogSetup σ) (level : Value) (handler : σ) :
    Except LevelError Unit × LogSetup σ :=
  if s.configured then (.ok (), s) else (Step.setUp level handler).run.run s

/-- Undoes `configure`, except that handlers keep their form. -/
def reset (s : LogSetup σ) : LogSetup σ := { s with toLogState := initial.toLogState }

/-- The least level of records that are made. The level zero means that of whoever sets none. -/
def threshold (s : LogSetup σ) : Int :=
  if s.level = 0 then inheritedLevel else s.level

/-- Whether a record of the event is made; never of one whose level is not positive. -/
def enabled (s : LogSetup σ) (event : LogEvent) : Bool :=
  0 < event.level && s.threshold ≤ event.level

/-- Where the record of an event goes. -/
def targets (s : LogSetup σ) (event : LogEvent) : Except ReservedField (List σ) :=
  if s.enabled event then
    match event.extra.find? fun (name, _) =>
        name = "message" || name = "asctime" || LogRecord.ownNames.contains name with
    | some (name, _) => .error ⟨name⟩
    | none => .ok s.handlers
  else .ok []

end LogSetup

end Daybook
