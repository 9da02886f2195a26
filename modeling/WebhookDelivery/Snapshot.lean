import WebhookDelivery.Api.Document
import WebhookDelivery.Api.Request
import WebhookDelivery.Settings
import WebhookDelivery.Subscription

/-!
# WebhookDelivery.Snapshot

Values as documents that show all there is to them, for inspection and for tests. Times are shown in
microseconds since 1970, bytes in hexadecimal digits, and numbers in double precision by their bits.
-/

namespace WebhookDelivery

class Snapshot (α : Type) where
  snapshot : α → Json

export Snapshot (snapshot)

namespace Snapshot

def ofFloat (x : Float) : Json :=
  .str ("f64:" ++ String.ofList (Text.hexDigits 16 x.toBits.toNat))

mutual

/-- A document with its numbers in double precision shown by their bits. -/
def ofJson : Json → Json
  | .float x => ofFloat x
  | .arr items => .arr (ofItems items)
  | .obj members => .obj (ofMembers members)
  | j => j

def ofItems : List Json → List Json
  | [] => []
  | j :: rest => ofJson j :: ofItems rest

def ofMembers : List (String × Json) → List (String × Json)
  | [] => []
  | m :: rest => (m.1, ofJson m.2) :: ofMembers rest

end

/-- The instant of a time, or the reading of a clock of unknown distance from universal time. -/
def ofTime (t : ClockTime) : Json :=
  if t.isAware then .int t.micros else .obj [("naive_us", .int t.reading)]

def ofBytes (bytes : Bytes) : Json := .obj [("hex", .str (String.ofList (Text.hexEncode bytes)))]

/-- A record as it is shown, with another value in a field that it has. -/
def assign? (record : Json) (name : String) (value : Json) : Option Json :=
  match record with
  | .obj members =>
    if Entries.contains members name then some (.obj (Entries.put members name (ofJson value)))
    else none
  | _ => none

/-- Named texts as the members of an object. -/
def ofTexts (texts : List (String × String)) : Json := .obj (texts.map fun t => (t.1, .str t.2))

end Snapshot

open Snapshot

instance : Snapshot Json := ⟨ofJson⟩
instance : Snapshot Unit := ⟨fun _ => .null⟩
instance : Snapshot String := ⟨.str⟩
instance : Snapshot LooseText := ⟨.ofLoose⟩
instance : Snapshot Bool := ⟨.bool⟩
instance : Snapshot Int := ⟨.int⟩
instance : Snapshot Nat := ⟨fun n => .int n⟩
instance : Snapshot Float := ⟨ofFloat⟩
instance : Snapshot Uuid := ⟨Uuid.toJson⟩
instance : Snapshot ClockTime := ⟨ofTime⟩

instance {α : Type} [Snapshot α] : Snapshot (Option α) := ⟨Json.ofOption snapshot⟩
instance {α : Type} [Snapshot α] : Snapshot (List α) := ⟨fun xs => .arr (xs.map snapshot)⟩

instance {α β : Type} [Snapshot α] [Snapshot β] : Snapshot (α × β) where
  snapshot p := .arr [snapshot p.1, snapshot p.2]

instance : Snapshot Bytes := ⟨ofBytes⟩

instance : Snapshot Event where
  snapshot e := .obj [
    ("event_id", snapshot e.eventId), ("application_id", snapshot e.applicationId),
    ("event_type", snapshot e.eventType), ("payload", snapshot e.payload),
    ("payload_content_type", snapshot e.contentType), ("labels", ofTexts e.labels),
    ("occurred_at", snapshot e.occurredAt), ("received_at", snapshot e.receivedAt),
    ("dispatched_at", snapshot e.dispatchedAt)]

instance : Snapshot Target where
  snapshot t := .obj [("method", snapshot t.method), ("url", snapshot t.url),
    ("headers", ofTexts t.headers)]

instance : Snapshot RetrySchedule where
  snapshot s := .obj [("strategy", snapshot s.strategy.name), ("intervals", snapshot s.intervals),
    ("max_attempts", snapshot s.maxAttempts)]

instance : Snapshot Subscription where
  snapshot s := .obj [
    ("subscription_id", snapshot s.subscriptionId), ("application_id", snapshot s.applicationId),
    ("is_enabled", snapshot s.isEnabled), ("event_types", snapshot s.eventTypes),
    ("label_key", snapshot s.labelKey), ("label_value", snapshot s.labelValue),
    ("target", snapshot s.target), ("secret", snapshot s.secret),
    ("dedicated_workers", snapshot s.dedicatedWorkers),
    ("retry_schedule", snapshot s.retrySchedule), ("description", snapshot s.description),
    ("created_at", snapshot s.createdAt)]

instance : Snapshot Attempt where
  snapshot a := .obj [
    ("request_attempt_id", snapshot a.attemptId), ("application_id", snapshot a.applicationId),
    ("event_id", snapshot a.eventId), ("subscription_id", snapshot a.subscriptionId),
    ("created_at", snapshot a.createdAt), ("picked_at", snapshot a.pickedAt),
    ("succeeded_at", snapshot a.succeededAt), ("failed_at", snapshot a.failedAt),
    ("retry_count", snapshot a.retryCount), ("delay_until", snapshot a.delayUntil),
    ("worker_name", snapshot a.workerName), ("worker_version", snapshot a.workerVersion),
    ("response_id", snapshot a.responseId)]

instance : Snapshot Response where
  snapshot r := .obj [
    ("response_id", snapshot r.responseId), ("request_attempt_id", snapshot r.attemptId),
    ("application_id", snapshot r.applicationId),
    ("response_error_name", snapshot (r.error.map FailureKind.code)),
    ("http_code", snapshot r.httpCode), ("headers", snapshot (r.headers.map Json.obj)),
    ("body", snapshot r.body), ("elapsed_time_ms", snapshot r.elapsedMs),
    ("created_at", snapshot r.createdAt)]

instance : Snapshot AttemptStats := ⟨fun s => .obj s.members⟩

instance : Snapshot RetrySettings where
  snapshot s := .obj [("base_delay_seconds", snapshot s.baseDelay),
    ("max_delay_seconds", snapshot s.maxDelay), ("max_retries", snapshot s.maxRetries),
    ("jitter_min", snapshot s.jitterMin), ("jitter_max", snapshot s.jitterMax)]

instance : Snapshot WorkerSettings where
  snapshot s := .obj [
    ("name", snapshot s.name), ("version", snapshot s.version),
    ("dedicated", snapshot s.dedicated), ("concurrency", snapshot s.concurrency),
    ("connect_timeout_seconds", snapshot s.connectTimeout),
    ("timeout_seconds", snapshot s.timeout), ("claim_grace_seconds", snapshot s.claimGrace),
    ("min_poll_seconds", snapshot s.minPoll), ("max_poll_seconds", snapshot s.maxPoll),
    ("disable_target_ip_check", snapshot s.disableTargetCheck),
    ("signature_header_name", snapshot s.signatureHeader),
    ("signed_headers", snapshot s.signedHeaders),
    ("max_response_body_bytes", snapshot s.maxBodyBytes)]

instance : Snapshot Settings where
  snapshot s := .obj [
    ("env", snapshot s.stage.name), ("database_path", snapshot s.databasePath),
    ("store_busy_timeout_ms", snapshot s.busyTimeoutMs), ("retry", snapshot s.retry),
    ("worker", snapshot s.worker), ("signature_tolerance_seconds", snapshot s.signatureTolerance),
    ("log_level", snapshot s.logLevel), ("log_format", snapshot s.logFormat.name)]

instance : Snapshot IngestRequest where
  snapshot r := .obj [
    ("event_id", snapshot r.eventId), ("application_id", snapshot r.applicationId),
    ("event_type", snapshot r.eventType), ("payload", snapshot r.payload),
    ("payload_encoding", snapshot r.encoding.name),
    ("payload_content_type", snapshot r.contentType), ("labels", ofTexts r.labels),
    ("occurred_at", snapshot r.occurredAt)]

instance : Snapshot ReplayRequest where
  snapshot r := .obj [("application_id", snapshot r.applicationId),
    ("subscription_id", snapshot r.subscriptionId)]

instance : Snapshot Health := ⟨Health.document⟩

instance : Snapshot Step where
  snapshot
    | .member name => .str name
    | .item index => .int index

instance : Snapshot LocatedFault where
  snapshot f := .obj ([("loc", snapshot f.path), ("type", .str f.fault.code)] ++
    (f.fault.message?.map fun m => ("msg", .str m)).toList)

end WebhookDelivery
