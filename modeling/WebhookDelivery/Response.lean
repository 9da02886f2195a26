import WebhookDelivery.Validation

/-!
# WebhookDelivery.Response

Responses: what came of one execution of an attempt, recorded once and never changed.
-/

namespace WebhookDelivery

inductive FailureKind where
  | connection
  | timeout
  | http
  | invalidTarget
  deriving DecidableEq, Repr

namespace FailureKind

def all : List FailureKind := [connection, timeout, http, invalidTarget]

def code : FailureKind → String
  | connection => "E_CONNECTION"
  | timeout => "E_TIMEOUT"
  | http => "E_HTTP"
  | invalidTarget => "E_INVALID_TARGET"

def ofCode? (s : String) : Option FailureKind := all.find? (·.code == s)

end FailureKind

/-- Why an execution failed, with the HTTP status where that is the reason. -/
structure Failure where
  kind : FailureKind
  httpCode : Option Int
  deriving DecidableEq, Repr

/-- Another execution may succeed: nothing was heard from the target, or it reported a fault of its
own (5xx), a timeout (408) or too many requests (429). -/
def Failure.isRetryable (f : Failure) : Bool :=
  match f.kind, f.httpCode with
  | .invalidTarget, _ => false
  | .http, some code => 500 ≤ code || code == 408 || code == 429
  | .http, none => false
  | _, _ => true

structure Response where
  responseId : Uuid
  attemptId : Uuid
  applicationId : Uuid
  error : Option FailureKind
  httpCode : Option Int
  headers : Option (List (String × Json))
  body : Option String
  elapsedMs : Int
  createdAt : ClockTime

namespace Response

def isSuccess (r : Response) : Bool := r.error.isNone

def failure? (r : Response) : Option Failure := r.error.map fun kind => ⟨kind, r.httpCode⟩

def fieldNames : List String :=
  ["response_id", "request_attempt_id", "application_id", "response_error_name", "http_code",
    "headers", "body", "elapsed_time_ms", "created_at"]

def readError : Reader FailureKind :=
  Reader.oneOf (FailureKind.all.map fun kind => (kind.code, kind)) .enumMember

/-- Reads a response; without an identifier it takes `freshId`. -/
def read (freshId : Uuid) (now : Int) : Reader Response :=
  Reader.closedRecord fieldNames fun members =>
    mk <$> Reader.withDefault members "response_id" freshId Reader.uuid
      <*> Reader.required members "request_attempt_id" Reader.uuid
      <*> Reader.required members "application_id" Reader.uuid
      <*> Reader.withDefault members "response_error_name" none (Reader.nullable readError)
      <*> Reader.withDefault members "http_code" none (Reader.nullable Reader.integer)
      <*> Reader.withDefault members "headers" none
        (Reader.nullable (Reader.dictionary Reader.anything))
      <*> Reader.withDefault members "body" none (Reader.nullable Reader.text)
      <*> Reader.withDefault members "elapsed_time_ms" 0 (fun j =>
        (Reader.integer j).require (0 ≤ ·) .greaterThanEqual)
      <*> Reader.withDefault members "created_at" (.utc now) Reader.time

end Response
end WebhookDelivery
