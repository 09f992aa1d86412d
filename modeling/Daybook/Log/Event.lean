import Daybook.Data.Tally
import Daybook.Data.Value
import Daybook.Log.Context

/-!
Log events and records.

An event is what a part of the program reports. Together with the context it becomes a record, which
is written as one JSON object on a line: time, level, logger, message, the bound fields, and the fields
of the event, which do not replace earlier ones.
-/

namespace Daybook

/-- The name of a level, or its number if it has none. -/
def levelName (level : Int) : String :=
  if level = 0 then "NOTSET"
  else if level = 10 then "DEBUG"
  else if level = 20 then "INFO"
  else if level = 30 then "WARNING"
  else if level = 40 then "ERROR"
  else if level = 50 then "CRITICAL"
  else "Level " ++ String.ofList (intText level)

/-- The levels by name, some of which have two. -/
def levelsByName : List (String × Int) :=
  [ ("CRITICAL", 50), ("FATAL", 50), ("ERROR", 40), ("WARN", 30), ("WARNING", 30), ("INFO", 20),
    ("DEBUG", 10), ("NOTSET", 0) ]

/-- Named values in order, each name once. -/
abbrev Fields := Tally String Value

namespace Fields

/-- The fields with one set, in its old place if there is one. -/
def put (fields : Fields) (name : String) (v : Value) : Fields :=
  Tally.update fields name fun _ => v

/-- The fields with others set one after the other. -/
def putAll (fields : Fields) (others : List (String × Value)) : Fields :=
  others.foldl (fun fields (name, v) => put fields name v) fields

end Fields

/-- Something that is reported. -/
structure LogEvent where
  level : Int
  logger : String
  message : String
  extra : List (String × Value) := []

/-- An event in its context. -/
structure LogRecord where
  event : LogEvent
  context : LogContext

namespace LogRecord

/-- The names that every record has of itself; an event may not use them for its fields. -/
def ownNames : List String :=
  [ "name", "msg", "args", "levelname", "levelno", "pathname", "filename", "module", "exc_info",
    "exc_text", "stack_info", "lineno", "funcName", "created", "msecs", "relativeCreated", "thread",
    "threadName", "processName", "process" ]

/-- The names that are not shown as fields of an event. -/
def unshownNames : List String := ownNames ++ ["message", "taskName"]

/-- The first fields of a record, with those that are bound and others, which do not replace them. -/
def assemble (start : Fields) (context : LogContext) (others : List (String × Value)) : Fields :=
  let bound := Fields.putAll start (context.toList.map fun (name, v) => (name, .text v))
  bound ++ (Fields.putAll [] others).filter fun (name, _) =>
    !unshownNames.contains name && !bound.keys.contains name

/-- The fields of a record, of which `time` shows when it was made. -/
def fields (time : String) (r : LogRecord) : Fields :=
  assemble
    [ ("ts", .text time), ("level", .text (levelName r.event.level)),
      ("logger", .text r.event.logger), ("message", .text r.event.message) ]
    r.context r.event.extra

end LogRecord

end Daybook
