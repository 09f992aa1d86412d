import Daybook.Data.Fault
import Daybook.Log.Event

/-!
Errors that are attached to lines of the log.

An attached error shows its name, its message, its code and its named arguments, and what was set on it
besides. Setting its arguments as such changes the message, and is not shown.
-/

namespace Daybook

/-- An error with what is set on it. -/
structure Attachment where
  fault : Fault
  additions : Fields := []
  /-- The arguments that were set, if any were. -/
  arguments : Option (List Value) := none

namespace Attachment

/-- The error with something set on it. The arguments can only be set to a value that offers items. -/
def set? (a : Attachment) (name : String) (v : Value) : Option Attachment :=
  if name = "args" then v.items?.map fun items => { a with arguments := some items }
  else some { a with additions := a.additions.put name v }

/-- The message: that of the error, unless arguments were set. -/
def message (a : Attachment) : String :=
  match a.arguments with
  | some arguments => Fault.argumentText arguments
  | none => a.fault.message

/-- The named arguments of the error and what is set on it. -/
def attributes (a : Attachment) : Fields :=
  Fields.putAll (Fields.putAll [] a.fault.attributes) a.additions

/-- The code of the error: one that is set on it, or else its own. -/
def code? (a : Attachment) : Option Value :=
  match Tally.get? a.attributes "code" with
  | some .null => none
  | some v => some v
  | none => a.fault.code?.map .text

/-- Whether a name is for internal use. -/
def isHidden (name : String) : Bool :=
  name.toList.head? = some '_'

/-- The fields that show the error. -/
def fields (a : Attachment) : Fields :=
  let start := [("exc_type", Value.text a.fault.name), ("exc_message", Value.text a.message)]
  let coded := match a.code? with
    | some code => Fields.put start "exc_code" code
    | none => start
  Fields.putAll coded
    ((a.attributes.filter fun (name, _) => !isHidden name).map fun (name, v) => ("exc_" ++ name, v))

end Attachment

end Daybook
