import WebhookDelivery.Api.Document
import WebhookDelivery.Api.Request
import WebhookDelivery.Api.Route
import WebhookDelivery.Service

/-!
# WebhookDelivery.Api.Server

The HTTP interface: requests are routed, read and answered from the service. Errors of the engine
have answers of their own; what the engine does not foresee is answered with status 500.
-/

namespace WebhookDelivery
namespace Api

def logger : String := "hook0.api.app"

def created (j : Json) : ApiAnswer := ⟨201, .document j⟩

def ok (j : Json) : ApiAnswer := ⟨200, .document j⟩

/-- Goes on with what was read of a request, or answers with its faults. -/
def reading {α : Type} (x : Validated α) (body : α → Engine ApiAnswer) : Engine ApiAnswer :=
  match x with
  | .valid x => body x
  | .invalid faults => return .unprocessable faults

def health (ready : Bool) : ApiAnswer :=
  ok (Health.document ⟨if ready then .healthy else .unhealthy, engineVersion, ready⟩)

def attemptDocuments (attempts : List Attempt) (now : Int) : Engine Json := do
  return .arr (← attempts.mapM fun a =>
    Engine.ofExcept (fun e => .record (.time e)) (a.document (.utc now)))

/-- The attempts that a request created for an event. -/
def createdAttempts (event : Uuid) (attempts : List Attempt) : Engine ApiAnswer := do
  let documents ← attemptDocuments attempts (← Engine.clock)
  return created (.obj [("event_id", event.toJson), ("request_attempts", documents)])

def ingestFailure : IngestError → OperationError
  | .payload e => .engine (.validation "payload" e.message)
  | .event e => .record e

def ingest (body : Option Json) : Engine ApiAnswer :=
  reading (ApiRequest.bodyRecord IngestRequest.read body) fun request => do
    let event ← Engine.ofExcept ingestFailure (request.toEvent (← Engine.clock))
    createdAttempts event.eventId (← Service.ingestEvent event)

def replay (event : String) (body : Option Json) : Engine ApiAnswer :=
  let parts := (ApiRequest.pathUuid "event_id" event).map Prod.mk
  reading (parts.seq (ApiRequest.bodyRecord ReplayRequest.read body)) fun (event, request) => do
    createdAttempts event
      (← Service.replay event request.applicationId request.subscriptionId)

/-- What a listing of attempts asks for. -/
structure Listing where
  application : Uuid
  event : Option Uuid
  subscription : Option Uuid
  status : Option AttemptStatus
  minCreatedAt : Option ClockTime
  maxCreatedAt : Option ClockTime
  limit : Int
  offset : Int

namespace Listing

def readStatus : Reader AttemptStatus :=
  Reader.oneOf (AttemptStatus.all.map fun s => (s.name, s)) .enumMember

def readLimit : Reader Int := fun j =>
  ((Reader.integer j).require (1 ≤ ·) .greaterThanEqual).require (· ≤ Service.maxPageSize)
    .lessThanEqual

def readOffset : Reader Int := fun j => (Reader.integer j).require (0 ≤ ·) .greaterThanEqual

def read (r : ApiRequest) : Validated Listing :=
  let given := fun {α : Type} (name : String) (read : Reader α) =>
    r.parameterOr name none fun j => (read j).map some
  mk <$> r.parameter "application_id" Reader.uuid
    <*> given "event_id" Reader.uuid
    <*> given "subscription_id" Reader.uuid
    <*> given "status" readStatus
    <*> given "min_created_at" Reader.time
    <*> given "max_created_at" Reader.time
    <*> r.parameterOr "limit" 100 readLimit
    <*> r.parameterOr "offset" 0 readOffset

def filter (l : Listing) : AttemptFilter :=
  ⟨l.event, l.subscription, l.status, l.minCreatedAt.map ClockTime.micros,
    l.maxCreatedAt.map ClockTime.micros⟩

end Listing

def listAttempts (r : ApiRequest) : Engine ApiAnswer :=
  reading (Listing.read r) fun l => do
    let now ← Engine.clock
    let attempts ← Service.listAttempts l.application l.filter now l.limit l.offset
    let documents ← attemptDocuments attempts now
    return ok (.obj [("request_attempts", documents), ("count", .int attempts.length)])

def stats (r : ApiRequest) : Engine ApiAnswer :=
  reading (r.parameter "application_id" Reader.uuid) fun application => do
    return ok ((← Service.attemptStats application).document application)

def response (id : String) (r : ApiRequest) : Engine ApiAnswer :=
  let parts := (ApiRequest.pathUuid "response_id" id).map Prod.mk
  reading (parts.seq (r.parameter "application_id" Reader.uuid)) fun (id, application) => do
    return ok (← Service.getResponse id application).document

/-- The body that an endpoint takes; the others leave it unread. -/
def bodyFor (endpoint : Endpoint) (r : ApiRequest) : Except ApiAnswer (Option Json) :=
  match endpoint with
  | .ingest | .replay _ => r.readBody
  | _ => .ok none

/-- Answers at an endpoint. Without a service only the state of health is known. -/
def serve (ready : Bool) (r : ApiRequest) (endpoint : Endpoint) : Engine ApiAnswer :=
  match endpoint, bodyFor endpoint r with
  | .health, _ => return health ready
  | _, .error answer => return answer
  | endpoint, .ok body =>
    if !ready then return .remark 503 "Service not initialized"
    else match endpoint with
      | .health => return health ready
      | .ingest => ingest body
      | .replay event => replay event body
      | .attempts => listAttempts r
      | .stats => stats r
      | .response id => response id r

def statusOf : ErrorKind → Nat
  | .validation => 400
  | .notFound => 404
  | .storeUnavailable => 503
  | _ => 500

def logError (url : String) (e : EngineError) : Engine Unit :=
  let path : LogFields := [("path", .str url)]
  match e with
  | .validation field _ =>
    Engine.log .warning logger "Validation error"
      ([("field", .str field), ("error", .str e.message)] ++ path)
  | .notFound resource id =>
    Engine.log .info logger "Resource not found"
      ([("resource_type", .str resource), ("resource_id", .str id)] ++ path)
  | .storeUnavailable message =>
    Engine.log .error logger "Attempt Store unavailable" ([("error", .str message)] ++ path)
  | _ =>
    Engine.log .error logger "Hook0 error"
      ([("error", .str e.message), ("code", .str e.kind.code)] ++ path)

def answerError (url : String) : OperationError → Engine ApiAnswer
  | .engine e => do
    logError url e
    return ⟨statusOf e.kind, .document e.document⟩
  | _ => return ⟨500, .text "Internal Server Error"⟩

def answerRoute (ready : Bool) (r : ApiRequest) : Engine ApiAnswer :=
  match r.route with
  | .nowhere => return .remark 404 "Not Found"
  | .otherMethod => return .remark 405 "Method Not Allowed"
  | .elsewhere => return ⟨307, .text ""⟩
  | .found endpoint => do
    match ← Engine.attempt? (serve ready r endpoint) with
    | .ok answer => return answer
    | .error e => answerError r.url e

/-- Answers a request. The answer to one that asks for the head alone has no content. -/
def answer (ready : Bool) (r : ApiRequest) : Engine ApiAnswer := do
  let a ← answerRoute ready { r with method := Text.upperString r.method }
  return if Text.upperString r.method = "HEAD" then ⟨a.status, .text ""⟩ else a

/-- Runs the interface on the store at a path while `body` lasts. -/
def whileServing {α : Type} (path : String) (site : DatabaseSite) (body : Engine α) : Engine α := do
  Engine.log .info logger "Starting Hook0 API" [("database_path", .str path)]
  Service.opened path site body

end Api
end WebhookDelivery
