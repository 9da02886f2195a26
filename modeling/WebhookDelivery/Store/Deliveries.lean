import WebhookDelivery.Stats
import WebhookDelivery.Store.Records

/-!
# WebhookDelivery.Store.Deliveries

The operations on attempts and responses: creating and listing attempts, claiming the next one,
recording the outcome of an execution, and counting by status.
-/

namespace WebhookDelivery

/-- An attempt that a worker holds, with what it needs to execute it. -/
structure Claim where
  attempt : Attempt
  event : Event
  subscription : Subscription

namespace Engine

def storeLogger : String := "hook0.storage.attempts"

/-- Tells whether the attempt was new. -/
def insertAttempt (a : Attempt) (key : String) : Engine Bool := atomically do
  touch .attempt
  checkInteger a.retryCount
  statement (·.insertAttempt (.new a key))

def getAttempt (id : Uuid) (application : Option Uuid) : Engine (Option Attempt) := do
  let row ← atomically do
    touch .attempt
    return inScope application AttemptRow.applicationId ((← tables).attempt? id)
  readRow readAttempt row

def getAttemptByKey (key : String) : Engine (Option Attempt) := do
  let row ← atomically do
    touch .attempt
    return (← tables).attempts.find? (·.dispatchKey == key)
  readRow readAttempt row

def findOpenAttempt (event subscription : Uuid) : Engine (Option Attempt) := do
  let row ← atomically do
    touch .attempt
    return (← tables).openAttempt? event subscription
  readRow readAttempt row

def listAttempts (application : Uuid) (filter : AttemptFilter) (now limit offset : Int) :
    Engine (List Attempt) := do
  let rows ← atomically do
    touch .attempt
    checkInteger limit
    checkInteger offset
    return (← tables).attemptsOf application filter now limit offset
  rows.mapM readAttempt

/-- The event and the subscription of an attempt that was claimed. -/
def loadClaim (a : Attempt) : Engine Claim := do
  let event ← getEvent a.eventId none
  let subscription ← getSubscription a.subscriptionId none
  match event, subscription with
  | some event, some subscription => return ⟨a, event, subscription⟩
  | _, _ => throw (.missingRows a.attemptId)

def claimNext (c : Claimant) (now : Int) : Engine (Option Claim) := atomically do
  touch .attempt
  touch .subscription
  match ← change (·.claim c now) with
  | none => return none
  | some row => return some (← loadClaim (← readAttempt row))

def findStale (before : Int) (limit : Int) : Engine (List Claim) := atomically do
  touch .attempt
  checkInteger limit
  let rows := (← tables).staleClaims before limit
  rows.mapM fun row => do loadClaim (← readAttempt row)

/-- What a response makes of its attempt: a failed execution is repeated when there is a time to
repeat it. -/
def outcomeOf (r : Response) (now : Int) (retryAt : Option Int) : Outcome :=
  if r.isSuccess then .succeeded now
  else match retryAt with
    | some due => .retried due
    | none => .failed now

def insertResponse (r : Response) : Engine Unit := do
  touch .response
  match r.httpCode with
  | some code => checkInteger code
  | none => pure ()
  checkInteger r.elapsedMs
  statement fun t => (t.insertResponse r).map fun t => ((), t)

/-- Records the outcome of an execution. Tells whether the claim was still held; if not, nothing is
recorded. -/
def finalize (claimed : Attempt) (r : Response) (now : Int) (retryAt : Option Int) :
    Engine Bool := do
  match claimed.pickedAt with
  | none => throw .notClaimed
  | some pickedAt =>
    atomically do
      touch .attempt
      let held ← change (·.release claimed.attemptId pickedAt.micros claimed.workerName
        (outcomeOf r now retryAt) r.responseId)
      if held then
        insertResponse r
        return true
      else
        log .warning storeLogger "Claim lost before finalization"
          [("request_attempt_id", .str claimed.attemptId.write)]
        return false

def getResponse (id : Uuid) (application : Option Uuid) : Engine (Option Response) := do
  let row ← atomically do
    touch .response
    return inScope application Response.applicationId ((← tables).response? id)
  readRow readResponse row

def listResponses (attempt : Uuid) : Engine (List Response) := do
  let rows ← atomically do
    touch .response
    return (← tables).responsesOf attempt
  rows.mapM readResponse

def attemptStats (application : Uuid) (now : Int) : Engine AttemptStats := atomically do
  touch .attempt
  let count := (← tables).countOf application now
  return ⟨count .waiting, count .pending, count .inProgress, count .successful, count .failed⟩

end Engine
end WebhookDelivery
