/-!
The context of log records.

A run binds a few fields, such as the source it works on, and every record written meanwhile carries
them. A change names fields; a field without a value is left as it is, and a change that names a field
that there is not is refused as a whole.
-/

namespace Daybook

/-- The fields of a context, in the order in which records show them. -/
inductive ContextField where
  | sourceName
  | stage
  | checkName
  deriving DecidableEq

namespace ContextField

/-- All fields in order. -/
def all : List ContextField := [.sourceName, .stage, .checkName]

/-- The name of a field. -/
def name : ContextField → String
  | .sourceName => "source_name"
  | .stage => "stage"
  | .checkName => "check_name"

/-- The field with the given name. -/
def ofName? (name : String) : Option ContextField :=
  all.find? fun field => field.name = name

end ContextField

/-- The values of the fields that are bound. -/
structure LogContext where
  sourceName : Option String := none
  stage : Option String := none
  checkName : Option String := none
  deriving DecidableEq

/-- A change of a context: names of fields, with the new values. -/
abbrev ContextChange := List (String × Option String)

/-- Names of fields that there are not. -/
structure UnknownFields where
  names : List String
  deriving DecidableEq

namespace UnknownFields

/-- The text of the message, with the names in order. -/
def message (e : UnknownFields) : String :=
  "Unknown log context field(s): "
    ++ String.intercalate ", " (e.names.mergeSort fun a b => decide (a ≤ b))

end UnknownFields

namespace LogContext

/-- Nothing is bound. -/
def empty : LogContext := {}

/-- The value of a field. -/
def get? (c : LogContext) : ContextField → Option String
  | .sourceName => c.sourceName
  | .stage => c.stage
  | .checkName => c.checkName

/-- The context with one field bound. -/
def bind (c : LogContext) (field : ContextField) (value : String) : LogContext :=
  match field with
  | .sourceName => { c with sourceName := some value }
  | .stage => { c with stage := some value }
  | .checkName => { c with checkName := some value }

/-- The bound fields in order. -/
def toList (c : LogContext) : List (String × String) :=
  ContextField.all.filterMap fun field => (c.get? field).map fun value => (field.name, value)

/-- The names in a change that are no fields. -/
def unknownNames (change : ContextChange) : List String :=
  (change.map (·.1)).filter fun name => (ContextField.ofName? name).isNone

/-- The context with one part of a change made. -/
def applyOne (c : LogContext) : String × Option String → LogContext
  | (_, none) => c
  | (name, some value) =>
    match ContextField.ofName? name with
    | some field => c.bind field value
    | none => c

/-- The context after a change. -/
def change (c : LogContext) (change : ContextChange) : Except UnknownFields LogContext :=
  match unknownNames change with
  | [] => .ok (change.foldl applyOne c)
  | names => .error ⟨names⟩

end LogContext

end Daybook
