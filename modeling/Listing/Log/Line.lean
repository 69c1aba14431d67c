import Listing.Entries
import Listing.Json.OfValue
import Listing.Log.Redaction

/-!
# Log lines

A log line is one structured text with the fields of an event, which pass through processors in the
order in which they are configured; each processor does what structlog documents of it. The event's
own fields and those bound to its logger are redacted (`SensitiveFieldsFilter`). Fields of the context
are joined to them where the event has none of the same name (`merge_contextvars`). The name of the
logger is set, that of a record if the fields hold one under `_record` (`add_logger_name`), then the
level (`add_log_level`) and the time (`TimeStamper`). A field `stack_info` that counts as true gives
way to the text of the call stack under `stack` (`StackInfoRenderer`). In the end the fields that only
serve the formatter are dropped and the line is written (`ProcessorFormatter`, `JSONRenderer`).

A line below the configured level, or with a value that cannot be written, is not written at all; a
record without a name stops the logging call.
-/

set_option autoImplicit false

namespace Listing.Log

/-- The severity of a line. -/
inductive Severity where
  | debug
  | info
  | warning
  | error
  | critical
  deriving DecidableEq, Repr

namespace Severity

/-- The name of a severity. -/
def name : Severity → String
  | debug => "debug"
  | info => "info"
  | warning => "warning"
  | error => "error"
  | critical => "critical"

/-- The rank of a severity. -/
def rank : Severity → Nat
  | debug => 10
  | info => 20
  | warning => 30
  | error => 40
  | critical => 50

/-- The severity with a name. -/
def ofName? (s : String) : Option Severity :=
  [debug, info, warning, error, critical].find? (·.name == s)

end Severity

/-- An entry handed to a logger. -/
structure Entry where
  severity : Severity
  logger : String
  event : String
  bound : List (String × Value)
  fields : List (String × Value)

/-- The names that a field of an event cannot have. -/
def reservedNames : List String := ["self", "event", "method_name"]

/-- The names that a bound field cannot have. -/
def reservedBoundNames : List String := ["self", "name"]

/-- The fields that are dropped from every line. -/
def droppedNames : List String := ["_record", "_from_structlog", "stack_info"]

/-- The name of a record: an attribute, or the name of a member of an enumeration. -/
def recordName : Value → Result Value
  | .object attributes =>
    match Entries.get? "name" attributes with
    | some v => .ok v
    | none => .error .noSuchOperation
  | .member m => .ok (.text m.name)
  | _ => .error .noSuchOperation

namespace Entry

/-- The fields have admissible names. -/
def isWellNamed (e : Entry) : Bool :=
  e.fields.all (fun (name, _) => !reservedNames.contains name) &&
    e.bound.all (fun (name, _) => !reservedBoundNames.contains name)

/-- The event's fields, over those bound to its logger. -/
def ownFields (e : Entry) : List (String × Value) :=
  Entries.put "event" (.text e.event) (Entries.override (Entries.ofList e.bound) e.fields)

/-- The own fields redacted, and the context joined to them. -/
def joinedFields (r : Redaction) (context : List (String × Value)) (e : Entry) :
    List (String × Value) :=
  let own := r.redactEntries (e.ownFields.map fun (name, v) => (.text name, v))
  Entries.override context (own.filterMap fun (k, v) => k.text?.map fun name => (name, v))

/-- The name of the logger: that of a record among the fields, if there is one. -/
def loggerName (e : Entry) (joined : List (String × Value)) : Result Value :=
  match (Entries.get? "_record" joined).getD .null with
  | .null => .ok (.text e.logger)
  | record => recordName record

/-- The text of the call stack, if the fields ask for it. -/
def stackFields (stack : String) (joined : List (String × Value)) : List (String × Value) :=
  if ((Entries.get? "stack_info" joined).getD .null).isTruthy then [("stack", .text stack)] else []

/-- The fields of a line; `stack` is the text of the call stack. -/
def lineFields (r : Redaction) (stack : String) (context : List (String × Value)) (e : Entry) :
    Result (List (Value × Value)) := do
  let joined := e.joinedFields r context
  let set := Entries.override joined
    ([("logger", ← e.loggerName joined), ("level", .text e.severity.name),
      ("timestamp", .bool true)] ++ stackFields stack joined)
  return (set.filter fun (name, _) => !droppedNames.contains name).map fun (name, v) => (.text name, v)

/-- The line of an entry, if it can be written. -/
def line? (r : Redaction) (stack : String) (context : List (String × Value)) (e : Entry) :
    Result (Option Json) := do
  return ((Json.ofEntries (← e.lineFields r stack context)).map .record).toOption

end Entry

/-- The lines of entries of at least the given rank, in order; `stackAt` gives the text of the call
stack at an entry. -/
def lines (r : Redaction) (least : Nat) (context : List (String × Value)) (entries : List Entry)
    (stackAt : Entry → String := fun _ => "") : Result (List Json) :=
  match entries with
  | [] => .ok []
  | e :: rest => do
    if e.isWellNamed then
      let line ← e.line? r (stackAt e) context
      let others ← lines r least context rest stackAt
      if least ≤ e.severity.rank then return line.toList ++ others
      else return others
    else .error .illTyped

end Listing.Log
