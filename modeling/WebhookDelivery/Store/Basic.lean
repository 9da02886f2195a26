import WebhookDelivery.Attempt
import WebhookDelivery.Event
import WebhookDelivery.Response
import WebhookDelivery.Subscription

/-!
# WebhookDelivery.Store.Basic

The store: four tables in the order in which their rows were inserted. Times are kept as
microseconds since 1970; a row whose time has no reading in the calendar can be stored, but not read
back.

* `AttemptRow`: an attempt as it is stored, with the key under which it was created.
* `Tables`: the rows, and the tables that have been lost.
* `Store`: the tables behind a connection.
-/

namespace WebhookDelivery

structure AttemptRow where
  attemptId : Uuid
  applicationId : Uuid
  eventId : Uuid
  subscriptionId : Uuid
  dispatchKey : String
  createdAt : Int
  pickedAt : Option Int
  succeededAt : Option Int
  failedAt : Option Int
  retryCount : Int
  delayUntil : Option Int
  workerName : Option String
  workerVersion : Option String
  responseId : Option Uuid
  deriving DecidableEq, Repr

namespace AttemptRow

/-- The row that an attempt is inserted as: free, whatever the attempt says of its state. -/
def new (a : Attempt) (key : String) : AttemptRow where
  attemptId := a.attemptId
  applicationId := a.applicationId
  eventId := a.eventId
  subscriptionId := a.subscriptionId
  dispatchKey := key
  createdAt := a.createdAt.micros
  pickedAt := none
  succeededAt := none
  failedAt := none
  retryCount := a.retryCount
  delayUntil := a.delayUntil.map ClockTime.micros
  workerName := none
  workerVersion := none
  responseId := none

def isOpen (r : AttemptRow) : Bool := r.succeededAt.isNone && r.failedAt.isNone

def isFree (r : AttemptRow) : Bool := r.isOpen && r.pickedAt.isNone

def isDue (r : AttemptRow) (now : Int) : Bool :=
  match r.delayUntil with
  | none => true
  | some due => due ≤ now

/-- The rows that a query for a status selects. -/
def hasStatus (r : AttemptRow) (now : Int) : AttemptStatus → Bool
  | .failed => r.failedAt.isSome
  | .successful => r.succeededAt.isSome
  | .inProgress => r.isOpen && r.pickedAt.isSome
  | .waiting => r.isFree && !r.isDue now
  | .pending => r.isFree && r.isDue now

/-- The greatest number that a column of integers holds. -/
def maxInteger : Int := 0x7fffffffffffffff

def times (r : AttemptRow) : List Int :=
  r.createdAt ::
    (r.pickedAt.toList ++ r.succeededAt.toList ++ r.failedAt.toList ++ r.delayUntil.toList)

/-- The attempt of a row. -/
def read (r : AttemptRow) : Except RecordError Attempt :=
  if !r.times.all ClockTime.inRange then .error (.time .outOfRange)
  else if maxInteger < r.retryCount then
    .error (.invalid [⟨[.member "retry_count"], .intParsingSize⟩])
  else .ok {
    attemptId := r.attemptId, applicationId := r.applicationId, eventId := r.eventId,
    subscriptionId := r.subscriptionId, createdAt := .utc r.createdAt,
    pickedAt := r.pickedAt.map .utc, succeededAt := r.succeededAt.map .utc,
    failedAt := r.failedAt.map .utc, retryCount := r.retryCount,
    delayUntil := r.delayUntil.map .utc, workerName := r.workerName,
    workerVersion := r.workerVersion, responseId := r.responseId }

end AttemptRow

/-- A subscription with its time moved to universal time, as it is stored. -/
def Subscription.toRow (s : Subscription) : Subscription :=
  { s with createdAt := .utc s.createdAt.micros }

def Subscription.readRow (s : Subscription) : Except RecordError Subscription :=
  if ClockTime.inRange s.createdAt.micros then .ok s else .error (.time .outOfRange)

def Response.toRow (r : Response) : Response := { r with createdAt := .utc r.createdAt.micros }

def Response.readRow (r : Response) : Except RecordError Response :=
  if ClockTime.inRange r.createdAt.micros then .ok r else .error (.time .outOfRange)

inductive TableName where
  | event
  | subscription
  | response
  | attempt
  deriving DecidableEq, Repr

def TableName.write : TableName → String
  | event => "event"
  | subscription => "subscription"
  | response => "response"
  | attempt => "request_attempt"

def TableName.ofText? (s : String) : Option TableName :=
  [event, subscription, response, attempt].find? (·.write == s)

/-- References between rows are checked unless `referencesUnchecked`, which is so since a table was
lost. -/
structure Tables where
  events : List Event
  subscriptions : List Subscription
  attempts : List AttemptRow
  responses : List Response
  lost : List TableName
  referencesUnchecked : Bool

namespace Tables

def empty : Tables := ⟨[], [], [], [], [], false⟩

def event? (t : Tables) (id : Uuid) : Option Event := t.events.find? (·.eventId == id)

def subscription? (t : Tables) (id : Uuid) : Option Subscription :=
  t.subscriptions.find? (·.subscriptionId == id)

def attempt? (t : Tables) (id : Uuid) : Option AttemptRow := t.attempts.find? (·.attemptId == id)

def response? (t : Tables) (id : Uuid) : Option Response := t.responses.find? (·.responseId == id)

/-- The tables without the rows of one of them. -/
def lose (t : Tables) (name : TableName) : Tables :=
  let t := { t with lost := name :: t.lost, referencesUnchecked := true }
  match name with
  | .event => { t with events := [] }
  | .subscription => { t with subscriptions := [] }
  | .response => { t with responses := [] }
  | .attempt => { t with attempts := [] }

/-- The tables as a new connection finds them: those that were lost are there again, empty. -/
def restore (t : Tables) : Tables := { t with lost := [], referencesUnchecked := false }

end Tables

/-- The tables behind a connection; a store in memory is empty again when it is opened anew. -/
structure Store where
  tables : Tables
  isOpen : Bool
  onFile : Bool
  inTransaction : Bool

namespace Store

def create (onFile : Bool) : Store := ⟨.empty, true, onFile, false⟩

def close (s : Store) : Store := { s with isOpen := false }

/-- Opens the connection if it is not open. -/
def connect (s : Store) : Store :=
  if s.isOpen then s
  else { s with isOpen := true, tables := if s.onFile then s.tables.restore else .empty }

end Store
end WebhookDelivery
