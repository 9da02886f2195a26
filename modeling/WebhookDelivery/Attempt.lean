import WebhookDelivery.Validation

/-!
# WebhookDelivery.Attempt

Request attempts: the chain of executions that delivers one event to one subscription. An attempt is
claimed by a worker, executed, and then succeeds, fails, or is free to be claimed again later.
-/

namespace WebhookDelivery

inductive AttemptStatus where
  | waiting
  | pending
  | inProgress
  | successful
  | failed
  deriving DecidableEq, Repr

namespace AttemptStatus

def all : List AttemptStatus := [waiting, pending, inProgress, successful, failed]

def name : AttemptStatus → String
  | waiting => "waiting"
  | pending => "pending"
  | inProgress => "in_progress"
  | successful => "successful"
  | failed => "failed"

def ofName? (s : String) : Option AttemptStatus := all.find? (·.name == s)

end AttemptStatus

/-- `retryCount` is the number of executions that were followed by a retry. -/
structure Attempt where
  attemptId : Uuid
  applicationId : Uuid
  eventId : Uuid
  subscriptionId : Uuid
  createdAt : ClockTime
  pickedAt : Option ClockTime
  succeededAt : Option ClockTime
  failedAt : Option ClockTime
  retryCount : Int
  delayUntil : Option ClockTime
  workerName : Option String
  workerVersion : Option String
  responseId : Option Uuid
  deriving DecidableEq, Repr

namespace Attempt

/-- A new attempt that no worker has picked. -/
def new (attemptId applicationId eventId subscriptionId : Uuid) (createdAt delayUntil : Int) :
    Attempt where
  attemptId := attemptId
  applicationId := applicationId
  eventId := eventId
  subscriptionId := subscriptionId
  createdAt := .utc createdAt
  pickedAt := none
  succeededAt := none
  failedAt := none
  retryCount := 0
  delayUntil := some (.utc delayUntil)
  workerName := none
  workerVersion := none
  responseId := none

def isTerminal (a : Attempt) : Bool := a.succeededAt.isSome || a.failedAt.isSome

/-- The observable state at a time. A clock of unknown distance cannot tell waiting from pending. -/
def statusAt (a : Attempt) (now : ClockTime) : Except TimeError AttemptStatus :=
  if a.failedAt.isSome then .ok .failed
  else if a.succeededAt.isSome then .ok .successful
  else if a.pickedAt.isSome then .ok .inProgress
  else match a.delayUntil with
    | none => .ok .pending
    | some due =>
      match due.isAfter? now with
      | .ok later => .ok (if later then .waiting else .pending)
      | .error e => .error e

def fieldNames : List String :=
  ["request_attempt_id", "application_id", "event_id", "subscription_id", "created_at", "picked_at",
    "succeeded_at", "failed_at", "retry_count", "delay_until", "worker_name", "worker_version",
    "response_id"]

def readTime? (members : List (String × Json)) (name : String) : Validated (Option ClockTime) :=
  Reader.withDefault members name none (Reader.nullable Reader.time)

/-- Reads an attempt; without an identifier it takes `freshId`. -/
def read (freshId : Uuid) (now : Int) : Reader Attempt :=
  Reader.closedRecord fieldNames fun members =>
    mk <$> Reader.withDefault members "request_attempt_id" freshId Reader.uuid
      <*> Reader.required members "application_id" Reader.uuid
      <*> Reader.required members "event_id" Reader.uuid
      <*> Reader.required members "subscription_id" Reader.uuid
      <*> Reader.withDefault members "created_at" (.utc now) Reader.time
      <*> readTime? members "picked_at"
      <*> readTime? members "succeeded_at"
      <*> readTime? members "failed_at"
      <*> Reader.withDefault members "retry_count" 0 (fun j =>
        (Reader.integer j).require (0 ≤ ·) .greaterThanEqual)
      <*> readTime? members "delay_until"
      <*> Reader.withDefault members "worker_name" none (Reader.nullable Reader.text)
      <*> Reader.withDefault members "worker_version" none (Reader.nullable Reader.text)
      <*> Reader.withDefault members "response_id" none (Reader.nullable Reader.uuid)

end Attempt
end WebhookDelivery
