import WebhookDelivery.Entries
import WebhookDelivery.OperationError

/-!
# WebhookDelivery.Log

Structured log lines. A line carries the fields that are bound when it is written, its own fields,
and the name of its logger; its own fields stand over bound ones. Plain lines are those of modules
that log text alone.
-/

namespace WebhookDelivery

inductive LogLevel where
  | debug
  | info
  | warning
  | error
  | critical
  deriving DecidableEq, Repr

def LogLevel.name : LogLevel → String
  | debug => "debug"
  | info => "info"
  | warning => "warning"
  | error => "error"
  | critical => "critical"

abbrev LogFields := List (String × Json)

/-- A line; `cause` is the error that it reports with a trace. -/
inductive LogLine where
  | structured (fields : LogFields) (cause : Option OperationError)
  | plain (text : String)

/-- The fields that are bound, and the lines written so far. -/
structure Log where
  context : LogFields
  lines : List LogLine

namespace Log

def empty : Log := ⟨[], []⟩

def bind (log : Log) (fields : LogFields) : Log :=
  { log with context := fields.foldl (fun c f => Entries.put c f.1 f.2) log.context }

def unbind (log : Log) (names : List String) : Log :=
  { log with context := log.context.filter fun f => !names.contains f.1 }

def clear (log : Log) : Log := { log with context := [] }

/-- Names that a line keeps for its time and for the error it reports; they are no fields of it. -/
def reserved : List String := ["timestamp", "exc_info"]

/-- The fields of a line. -/
def lineFields (context : LogFields) (level : LogLevel) (logger event : String)
    (fields : LogFields) : LogFields :=
  let all : LogFields :=
    fields ++ [("event", .str event), ("level", .str level.name), ("logger", .str logger)]
  (all.foldl (fun c f => Entries.put c f.1 f.2) context).filter fun f => !reserved.contains f.1

/-- Writes a line; those of level debug are dropped. -/
def write (log : Log) (level : LogLevel) (logger event : String) (fields : LogFields)
    (cause : Option OperationError) : Log :=
  if level = .debug then log
  else
    let line := LogLine.structured (lineFields log.context level logger event fields) cause
    { log with lines := log.lines ++ [line] }

def writePlain (log : Log) (text : String) : Log :=
  { log with lines := log.lines ++ [.plain text] }

/-- The fields that identify a unit of a worker. -/
def workerFields (name : String) (unit : Int) (version : Option String) : LogFields :=
  [("worker_name", .str name), ("unit_id", .int unit)] ++
    (version.map fun v => ("worker_version", Json.str v)).toList

/-- The fields that identify the attempt that is being processed. -/
def attemptFields (a : Attempt) : LogFields :=
  [("request_attempt_id", .str a.attemptId.write), ("event_id", .str a.eventId.write),
    ("subscription_id", .str a.subscriptionId.write), ("retry_count", .int a.retryCount)]

/-- What fields that are bound for a while stand over. -/
def shadowed (log : Log) (fields : LogFields) : LogFields :=
  log.context.filter fun f => Entries.contains fields f.1

/-- Removes fields that were bound for a while and puts back what they stood over. -/
def unshadow (log : Log) (fields shadowed : LogFields) : Log :=
  (log.unbind (fields.map (·.1))).bind shadowed

end Log
end WebhookDelivery
