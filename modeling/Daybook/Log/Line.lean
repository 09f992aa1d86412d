import Daybook.Calendar.Timestamp
import Daybook.Data.Template
import Daybook.Log.Attachment

/-!
Lines of the log that are made from outside.

Such a line has parts of its own: when it was made, the label of its level, its logger, its message with
values for the places in it, and an attached error. Whoever sets a field with the name of a part
replaces the part, by a value of any kind; every other field is shown beside them. That the parts fit
shows only when the line is written, which may fail.
-/

namespace Daybook

/-- What stands where a line has its attached error. -/
inductive LogLine.ErrorPart where
  | attached (a : Attachment)
  /-- Some value, which should be a list whose second item is an error. -/
  | value (v : Value)

/-- A line of the log before it is written. -/
structure LogLine where
  /-- Seconds since the beginning of 1970. -/
  created : Value := .integer 0
  level : Value
  logger : Value
  message : Value
  /-- The values for the places in the message, unless this counts as nothing. -/
  arguments : Value := .tuple []
  error : LogLine.ErrorPart := .value .null
  /-- Whether the message can be read: not if a field replaces the way to it. -/
  readable : Bool := true
  others : List (String × Value) := []

/-- Why a line cannot be written. -/
inductive LogLine.Failure where
  | time (e : Timestamp.TimeError)
  | message (e : TemplateError)
  /-- The message cannot be read. -/
  | unreadable
  /-- In place of the error stands a list that is too short. -/
  | noSecondItem
  /-- In place of the error stands a mapping, where the second item is looked up in vain. -/
  | noEntry
  /-- What stands in place of the error is none. -/
  | noError
  deriving DecidableEq

/-- The label of a level that is given by any value: levels with a name are shown by it, and names by
their level. Lists and mappings are no levels. -/
def levelLabel? (v : Value) : Option Value :=
  let named := [0, 10, 20, 30, 40, 50].find? fun n => v.sameKey (.integer n)
  match named, v.text?.bind fun name => levelsByName.find? (·.1 = name) with
  | some n, _ => some (.text (levelName n))
  | none, some (_, n) => some (.integer n)
  | none, none => if v.isKey then some (.text ("Level " ++ v.plain)) else none

namespace LogLine

/-- The line with a field set, which may be a part. -/
def set (l : LogLine) (name : String) (v : Value) : LogLine :=
  match name with
  | "created" => { l with created := v }
  | "levelname" => { l with level := v }
  | "name" => { l with logger := v }
  | "msg" => { l with message := v }
  | "args" => { l with arguments := v }
  | "exc_info" => { l with error := .value v }
  | "getMessage" => { l with readable := false }
  | name => { l with others := l.others ++ [(name, v)] }

/-- The message with values in its places. -/
def messageText (l : LogLine) : Except Failure String :=
  let template := l.message.plain
  if !l.readable then .error .unreadable
  else if l.arguments.isEmpty then .ok template
  else (Template.format template l.arguments).mapError .message

/-- The second item of a value in place of an error has to be nothing. -/
def checkSecond : List Value → Except Failure Unit
  | _ :: .null :: _ => .ok ()
  | _ :: _ :: _ => .error .noError
  | _ => .error .noSecondItem

/-- The attached error, if there is one. -/
def ErrorPart.attachment? : ErrorPart → Except Failure (Option Attachment)
  | .attached a => .ok (some a)
  | .value v =>
    if v.isEmpty then .ok none
    else
      match v with
      | .list items => (checkSecond items).map fun () => none
      | .tuple items => (checkSecond items).map fun () => none
      | .text s => if s.length < 2 then .error .noSecondItem else .error .noError
      | .mapping _ => .error .noEntry
      | _ => .error .noError

/-- The fields of a line in a context. -/
def fields (l : LogLine) (context : LogContext) : Except Failure Fields := do
  let time ← (Timestamp.isoOfValue l.created).mapError .time
  let message ← l.messageText
  let shown := LogRecord.assemble
    [ ("ts", .text time), ("level", l.level), ("logger", l.logger), ("message", .text message) ]
    context l.others
  match ← l.error.attachment? with
  | some a => return Fields.putAll shown a.fields
  | none => return shown

end LogLine

end Daybook
