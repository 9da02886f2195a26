import WebhookDelivery.Json.Dump
import WebhookDelivery.Json.Parser
import WebhookDelivery.Store.Statement

/-!
# WebhookDelivery.Store.Columns

The columns in which the tables hold events, subscriptions and responses: identifiers as their
texts, sets, maps, lists and schedules as documents, times as microseconds since 1970, and truth
values as integers.

* `Event.columns` and the like: the row that a record is stored as.
* `EventColumns.read` and the like: the record of a row, validated as if it were new.
* `ColumnTables`: the rows of the three tables, and the statements that write them.
-/

namespace WebhookDelivery

namespace Json

/-- A document as the text of a column. -/
def columnText (j : Json) : String := String.ofList (dump [' '] j)

def ofEntries (entries : List (String × String)) : Json :=
  .obj (entries.map fun e => (e.1, .str e.2))

end Json

structure EventColumns where
  eventId : String
  applicationId : String
  eventType : String
  payload : Bytes
  contentType : String
  labels : String
  occurredAt : Int
  receivedAt : Int
  dispatchedAt : Option Int
  deriving DecidableEq, Repr

structure SubscriptionColumns where
  subscriptionId : String
  applicationId : String
  isEnabled : Int
  eventTypes : String
  labelKey : String
  labelValue : String
  targetMethod : String
  targetUrl : String
  targetHeaders : String
  secret : String
  dedicatedWorkers : String
  retrySchedule : Option String
  description : Option String
  createdAt : Int
  deriving DecidableEq, Repr

structure ResponseColumns where
  responseId : String
  attemptId : String
  applicationId : String
  errorName : Option String
  httpCode : Option Int
  headers : Option String
  body : Option String
  elapsedMs : Int
  createdAt : Int
  deriving DecidableEq, Repr

/-! ## Records as rows -/

def Event.columns (e : Event) : EventColumns where
  eventId := e.eventId.write
  applicationId := e.applicationId.write
  eventType := e.eventType
  payload := e.payload
  contentType := e.contentType
  labels := (Json.ofEntries (Entries.sort e.labels)).columnText
  occurredAt := e.occurredAt
  receivedAt := e.receivedAt
  dispatchedAt := e.dispatchedAt

def RetrySchedule.document (s : RetrySchedule) : Json :=
  .obj [("strategy", .str s.strategy.name), ("intervals", .arr (s.intervals.map .int)),
    ("max_attempts", .int s.maxAttempts)]

/-- A schedule is written without blanks, unlike the other documents. -/
def Subscription.columns (s : Subscription) : SubscriptionColumns where
  subscriptionId := s.subscriptionId.write
  applicationId := s.applicationId.write
  isEnabled := if s.isEnabled then 1 else 0
  eventTypes := (Json.arr ((s.eventTypes.mergeSort fun a b => a ≤ b).map .str)).columnText
  labelKey := s.labelKey
  labelValue := s.labelValue
  targetMethod := s.target.method
  targetUrl := s.target.url
  targetHeaders := (Json.ofEntries s.target.headers).columnText
  secret := s.secret
  dedicatedWorkers := (Json.arr (s.dedicatedWorkers.map .str)).columnText
  retrySchedule := s.retrySchedule.map fun schedule => String.ofList (schedule.document.dump [])
  description := s.description
  createdAt := s.createdAt.micros

def Response.columns (r : Response) : ResponseColumns where
  responseId := r.responseId.write
  attemptId := r.attemptId.write
  applicationId := r.applicationId.write
  errorName := r.error.map FailureKind.code
  httpCode := r.httpCode
  headers := r.headers.map fun headers => (Json.obj headers).columnText
  body := r.body
  elapsedMs := r.elapsedMs
  createdAt := r.createdAt.micros

/-! ## Rows as records -/

/-- Why a row has no record. -/
inductive ColumnError where
  | identifier
  | document (e : Json.SyntaxError)
  | errorName
  | record (e : RecordError)
  deriving DecidableEq, Repr

namespace Column

def readId (s : String) : Except ColumnError Uuid :=
  match Uuid.read? s.toList with
  | some id => .ok id
  | none => .error .identifier

def readDocument (s : String) : Except ColumnError Json :=
  (Json.parse s.toList).mapError .document

def readTime (micros : Int) : Except ColumnError ClockTime :=
  (ClockTime.ofMicros? micros).mapError fun e => .record (.time e)

def readErrorName (s : String) : Except ColumnError FailureKind :=
  match FailureKind.ofCode? s with
  | some kind => .ok kind
  | none => .error .errorName

end Column

open Column

def EventColumns.read (c : EventColumns) : Except ColumnError Event := do
  let eventId ← readId c.eventId
  let applicationId ← readId c.applicationId
  let labels ← readDocument c.labels
  let occurredAt ← readTime c.occurredAt
  let receivedAt ← readTime c.receivedAt
  let dispatchedAt ← c.dispatchedAt.mapM readTime
  let event := Event.mk eventId applicationId
    <$> (Reader.textOfLength 1 (.str c.eventType)).below (.member "event_type")
    <*> .valid c.payload
    <*> (Reader.textOfLength 1 (.str c.contentType)).below (.member "payload_content_type")
    <*> (Event.readLabels labels).below (.member "labels")
    <*> .valid occurredAt.micros
    <*> .valid receivedAt.micros
    <*> .valid (dispatchedAt.map ClockTime.micros)
  event.toExcept.mapError .record

/-- The members of a row's subscription, but for its time. -/
def SubscriptionColumns.members (c : SubscriptionColumns) (eventTypes headers workers : Json)
    (schedule : Option Json) : List (String × Json) :=
  [("subscription_id", .str c.subscriptionId), ("application_id", .str c.applicationId),
    ("is_enabled", .bool (c.isEnabled != 0)), ("event_types", eventTypes),
    ("label_key", .str c.labelKey), ("label_value", .str c.labelValue),
    ("target", .obj [("method", .str c.targetMethod), ("url", .str c.targetUrl),
      ("headers", headers)]),
    ("secret", .str c.secret), ("dedicated_workers", workers),
    ("retry_schedule", schedule.getD .null), ("description", .ofString? c.description)]

/-- The time is read first, and stands in for the member that is left out. -/
def SubscriptionColumns.read (c : SubscriptionColumns) : Except ColumnError Subscription := do
  let eventTypes ← readDocument c.eventTypes
  let headers ← readDocument c.targetHeaders
  let workers ← readDocument c.dedicatedWorkers
  let schedule ← c.retrySchedule.mapM readDocument
  let createdAt ← readTime c.createdAt
  let subscription := Subscription.read default createdAt.micros
    (.obj (c.members eventTypes headers workers schedule))
  subscription.toExcept.mapError .record

def ResponseColumns.read (c : ResponseColumns) : Except ColumnError Response := do
  let responseId ← readId c.responseId
  let attemptId ← readId c.attemptId
  let applicationId ← readId c.applicationId
  let error ← c.errorName.mapM readErrorName
  let headers ← c.headers.mapM readDocument
  let createdAt ← readTime c.createdAt
  let response := Response.mk responseId attemptId applicationId error c.httpCode
    <$> (Reader.nullable (Reader.dictionary Reader.anything) (headers.getD .null)).below
      (.member "headers")
    <*> .valid c.body
    <*> ((Validated.valid c.elapsedMs).require (0 ≤ ·) .greaterThanEqual).below
      (.member "elapsed_time_ms")
    <*> .valid createdAt
  response.toExcept.mapError .record

/-! ## Statements -/

/-- A row that is saved again: the columns named here change, and no others. -/
def SubscriptionColumns.updated (old row : SubscriptionColumns) : SubscriptionColumns :=
  { old with
    isEnabled := row.isEnabled
    eventTypes := row.eventTypes
    labelKey := row.labelKey
    labelValue := row.labelValue
    targetMethod := row.targetMethod
    targetUrl := row.targetUrl
    targetHeaders := row.targetHeaders
    secret := row.secret
    dedicatedWorkers := row.dedicatedWorkers
    retrySchedule := row.retrySchedule
    description := row.description }

structure ColumnTables where
  events : List EventColumns
  subscriptions : List SubscriptionColumns
  responses : List ResponseColumns
  deriving DecidableEq, Repr

namespace ColumnTables

def event? (t : ColumnTables) (id : String) : Option EventColumns :=
  t.events.find? (·.eventId == id)

def subscription? (t : ColumnTables) (id : String) : Option SubscriptionColumns :=
  t.subscriptions.find? (·.subscriptionId == id)

def response? (t : ColumnTables) (id : String) : Option ResponseColumns :=
  t.responses.find? (·.responseId == id)

/-- A row whose identifier is taken is ignored. -/
def insertEvent (t : ColumnTables) (row : EventColumns) : ColumnTables :=
  if (t.event? row.eventId).isSome then t else { t with events := t.events ++ [row] }

/-- A row with a new identifier is inserted, and one whose identifier is taken is updated. -/
def saveSubscription (t : ColumnTables) (row : SubscriptionColumns) : ColumnTables :=
  if (t.subscription? row.subscriptionId).isSome then
    { t with
      subscriptions :=
        Tables.updateRows (·.subscriptionId == row.subscriptionId) (·.updated row) t.subscriptions }
  else { t with subscriptions := t.subscriptions ++ [row] }

def insertResponse (t : ColumnTables) (row : ResponseColumns) :
    Except StatementError ColumnTables :=
  if (t.response? row.responseId).isSome then .error .duplicateResponse
  else .ok { t with responses := t.responses ++ [row] }

end ColumnTables

/-- The tables as their columns hold them. -/
def Tables.columns (t : Tables) : ColumnTables :=
  ⟨t.events.map Event.columns, t.subscriptions.map Subscription.columns,
    t.responses.map Response.columns⟩

end WebhookDelivery
