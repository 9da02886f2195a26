import WebhookDelivery.Response
import WebhookDelivery.Stats

/-!
# WebhookDelivery.Api.Document

The documents in which the HTTP interface shows attempts, responses, counts and its own health.
-/

namespace WebhookDelivery

def ClockTime.toJson (t : ClockTime) : Json := .str t.writeDocument

def Json.ofOption {α : Type} (f : α → Json) : Option α → Json
  | some x => f x
  | none => .null

def Uuid.toJson (u : Uuid) : Json := .str u.write

/-- An attempt as it stands at a time. -/
def Attempt.document (a : Attempt) (now : ClockTime) : Except TimeError Json :=
  match a.statusAt now with
  | .error e => .error e
  | .ok status => .ok (.obj [
      ("request_attempt_id", a.attemptId.toJson),
      ("application_id", a.applicationId.toJson),
      ("event_id", a.eventId.toJson),
      ("subscription_id", a.subscriptionId.toJson),
      ("created_at", a.createdAt.toJson),
      ("picked_at", .ofOption ClockTime.toJson a.pickedAt),
      ("succeeded_at", .ofOption ClockTime.toJson a.succeededAt),
      ("failed_at", .ofOption ClockTime.toJson a.failedAt),
      ("retry_count", .int a.retryCount),
      ("delay_until", .ofOption ClockTime.toJson a.delayUntil),
      ("worker_name", .ofString? a.workerName),
      ("worker_version", .ofString? a.workerVersion),
      ("response_id", .ofOption Uuid.toJson a.responseId),
      ("status", .str status.name)])

def Response.document (r : Response) : Json :=
  .obj [
    ("response_id", r.responseId.toJson),
    ("request_attempt_id", r.attemptId.toJson),
    ("application_id", r.applicationId.toJson),
    ("response_error_name", .ofOption (fun kind => .str kind.code) r.error),
    ("http_code", .ofInt? r.httpCode),
    ("headers", .ofOption .obj r.headers),
    ("body", .ofString? r.body),
    ("elapsed_time_ms", .int r.elapsedMs),
    ("created_at", r.createdAt.toJson)]

def AttemptStats.document (s : AttemptStats) (application : Uuid) : Json :=
  .obj (("application_id", application.toJson) :: s.members)

inductive HealthStatus where
  | healthy
  | unhealthy
  deriving DecidableEq, Repr

def HealthStatus.name : HealthStatus → String
  | healthy => "healthy"
  | unhealthy => "unhealthy"

structure Health where
  status : HealthStatus
  version : String
  storageConnected : Bool

namespace Health

def document (h : Health) : Json :=
  .obj [("status", .str h.status.name), ("version", .str h.version),
    ("storage_connected", .bool h.storageConnected)]

def read : Reader Health :=
  Reader.closedRecord ["status", "version", "storage_connected"] fun members =>
    mk <$> Reader.required members "status"
        (Reader.oneOf ([HealthStatus.healthy, .unhealthy].map fun s => (s.name, s)) .literal)
      <*> Reader.required members "version" Reader.text
      <*> Reader.required members "storage_connected" Reader.boolean

end Health
end WebhookDelivery
