import WebhookDelivery.Entries
import WebhookDelivery.Validation

/-!
# WebhookDelivery.Event

Events: immutable facts that a producer submits once, with an opaque payload and the labels by which
they are routed, in increasing order of their names. Times are microseconds since 1970 on a
universal clock.
-/

namespace WebhookDelivery

structure Event where
  eventId : Uuid
  applicationId : Uuid
  eventType : String
  payload : Bytes
  contentType : String
  labels : List (String × String)
  occurredAt : Int
  receivedAt : Int
  dispatchedAt : Option Int
  deriving DecidableEq, Repr

namespace Event

def defaultContentType : String := "application/json"

def fieldNames : List String :=
  ["event_id", "application_id", "event_type", "payload", "payload_content_type", "labels",
    "occurred_at", "received_at", "dispatched_at"]

def readLabels : Reader (List (String × String)) := fun j =>
  ((Reader.dictionary Reader.text j).map Entries.sort).require (fun labels => !labels.isEmpty)
    (.value "an event must carry at least one label")

def readFields (now : Int) (members : List (String × Json)) : Validated Event :=
  mk <$> Reader.required members "event_id" Reader.uuid
    <*> Reader.required members "application_id" Reader.uuid
    <*> Reader.required members "event_type" (Reader.textOfLength 1)
    <*> Reader.required members "payload" Reader.bytes
    <*> Reader.withDefault members "payload_content_type" defaultContentType (Reader.textOfLength 1)
    <*> Reader.required members "labels" readLabels
    <*> (Reader.withDefault members "occurred_at" (.utc now) Reader.time).map ClockTime.micros
    <*> (Reader.withDefault members "received_at" (.utc now) Reader.time).map ClockTime.micros
    <*> (Reader.withDefault members "dispatched_at" none (Reader.nullable Reader.time)).map
      (·.map ClockTime.micros)

/-- A time of the document can be read but has no reading on a universal clock. -/
def hasUnrepresentableTime (j : Json) : Bool :=
  ["occurred_at", "received_at", "dispatched_at"].any fun name =>
    match (j.member? name).map Reader.time with
    | some (.valid t) => !ClockTime.inRange t.micros
    | _ => false

/-- Reads an event; times that are absent are `now`. -/
def read (now : Int) (j : Json) : Except RecordError Event :=
  if hasUnrepresentableTime j then .error (.time .outOfRange)
  else (Reader.closedRecord fieldNames (readFields now) j).toExcept

/-- The rules that every event obeys, whoever builds it. -/
def check (e : Event) : Except RecordError Event :=
  if !([e.occurredAt, e.receivedAt] ++ e.dispatchedAt.toList).all ClockTime.inRange then
    .error (.time .outOfRange)
  else if e.labels.isEmpty then
    .error (.invalid [⟨[.member "labels"], .value "an event must carry at least one label"⟩])
  else .ok e

end Event
end WebhookDelivery
