import WebhookDelivery.Event
import WebhookDelivery.Text.Base64

/-!
# WebhookDelivery.Api.Request

The bodies of the requests that ingest an event and that replay one.
-/

namespace WebhookDelivery

inductive PayloadEncoding where
  | text
  | base64
  deriving DecidableEq, Repr

def PayloadEncoding.name : PayloadEncoding → String
  | text => "string"
  | base64 => "base64"

/-- A request to ingest an event, whose payload is carried as text that need not be well formed. -/
structure IngestRequest where
  eventId : Uuid
  applicationId : Uuid
  eventType : String
  payload : LooseText
  encoding : PayloadEncoding
  contentType : String
  labels : List (String × String)
  occurredAt : Option ClockTime
  deriving DecidableEq, Repr

inductive PayloadError where
  | encoding (e : EncodingFault)
  | base64 (e : Text.Base64Error)
  deriving DecidableEq, Repr

/-- Characters outside ASCII are refused before the text is read as base 64. -/
def PayloadError.message : PayloadError → String
  | .encoding e => e.message
  | .base64 .notAscii => Text.Base64Error.notAscii.message
  | .base64 e => "Invalid base64 payload: " ++ e.message

inductive IngestError where
  | payload (e : PayloadError)
  | event (e : RecordError)
  deriving DecidableEq, Repr

namespace IngestRequest

def fieldNames : List String :=
  ["event_id", "application_id", "event_type", "payload", "payload_encoding",
    "payload_content_type", "labels", "occurred_at"]

def readEncoding : Reader PayloadEncoding :=
  Reader.oneOf ([PayloadEncoding.text, .base64].map fun e => (e.name, e)) .literal

def readLabels : Reader (List (String × String)) := fun j =>
  (Reader.dictionary Reader.text j).require (fun labels => !labels.isEmpty) .tooShort

def read : Reader IngestRequest :=
  Reader.closedRecord fieldNames fun members =>
    mk <$> Reader.required members "event_id" Reader.uuid
      <*> Reader.required members "application_id" Reader.uuid
      <*> Reader.required members "event_type" (Reader.textOfLength 1)
      <*> Reader.required members "payload" Reader.looseText
      <*> Reader.withDefault members "payload_encoding" .text readEncoding
      <*> Reader.withDefault members "payload_content_type" Event.defaultContentType
        (Reader.textOfLength 1)
      <*> Reader.required members "labels" readLabels
      <*> Reader.withDefault members "occurred_at" none (Reader.nullable Reader.time)

/-- The exact bytes to deliver. -/
def payloadBytes (r : IngestRequest) : Except PayloadError Bytes :=
  match r.encoding with
  | .text =>
    match r.payload.utf8 with
    | .ok bytes => .ok bytes
    | .error e => .error (.encoding e)
  | .base64 =>
    match Text.base64Decode (r.payload.map CodePoint.shown) with
    | .ok bytes => .ok bytes
    | .error e => .error (.base64 e)

/-- The event to store when the request arrives at `now`. -/
def toEvent (r : IngestRequest) (now : Int) : Except IngestError Event :=
  match r.payloadBytes with
  | .error e => .error (.payload e)
  | .ok payload =>
    let event : Event :=
      { eventId := r.eventId, applicationId := r.applicationId, eventType := r.eventType,
        payload := payload, contentType := r.contentType, labels := Entries.sort r.labels,
        occurredAt := (r.occurredAt.map ClockTime.micros).getD now, receivedAt := now,
        dispatchedAt := none }
    match event.check with
    | .ok event => .ok event
    | .error e => .error (.event e)

end IngestRequest

structure ReplayRequest where
  applicationId : Uuid
  subscriptionId : Option Uuid
  deriving DecidableEq, Repr

def ReplayRequest.read : Reader ReplayRequest :=
  Reader.closedRecord ["application_id", "subscription_id"] fun members =>
    mk <$> Reader.required members "application_id" Reader.uuid
      <*> Reader.withDefault members "subscription_id" none (Reader.nullable Reader.uuid)

end WebhookDelivery
