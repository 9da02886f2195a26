import WebhookDelivery.Store.Transaction

/-!
# WebhookDelivery.Store.Edit

Changes of single columns from outside the engine. The rules of the tables hold for them too: an
attempt that has ended and a recorded response cannot be changed, and a retry count cannot decrease.
-/

namespace WebhookDelivery

namespace AttemptRow

/-- A change of one column: the changed row, or what forbids the value in any row. -/
abbrev Edit := AttemptRow → Except StatementError AttemptRow

def setText (column : String) (set : AttemptRow → String → AttemptRow) : Json → Option Edit
  | .str s => some fun r => .ok (set r s)
  | .null => some fun _ => .error (.notNull ("request_attempt." ++ column))
  | _ => none

def setId (column : String) (set : AttemptRow → Uuid → AttemptRow) : Json → Option Edit
  | .str s => (Uuid.read? s.toList).map fun id r => .ok (set r id)
  | .null => some fun _ => .error (.notNull ("request_attempt." ++ column))
  | _ => none

def setInteger (column : String) (set : AttemptRow → Int → AttemptRow) : Json → Option Edit
  | .int i => some fun r => .ok (set r i)
  | .null => some fun _ => .error (.notNull ("request_attempt." ++ column))
  | _ => none

def setTime? (set : AttemptRow → Option Int → AttemptRow) : Json → Option Edit
  | .int i => some fun r => .ok (set r (some i))
  | .null => some fun r => .ok (set r none)
  | _ => none

def setText? (set : AttemptRow → Option String → AttemptRow) : Json → Option Edit
  | .str s => some fun r => .ok (set r (some s))
  | .null => some fun r => .ok (set r none)
  | _ => none

def setId? (set : AttemptRow → Option Uuid → AttemptRow) : Json → Option Edit
  | .str s => (Uuid.read? s.toList).map fun id r => .ok (set r (some id))
  | .null => some fun r => .ok (set r none)
  | _ => none

/-- The change that puts a value into the column of a name. -/
def edit? (column : String) (value : Json) : Option Edit :=
  match column with
  | "request_attempt_id" => setId column (fun r x => { r with attemptId := x }) value
  | "application_id" => setId column (fun r x => { r with applicationId := x }) value
  | "event_id" => setId column (fun r x => { r with eventId := x }) value
  | "subscription_id" => setId column (fun r x => { r with subscriptionId := x }) value
  | "dispatch_key" => setText column (fun r x => { r with dispatchKey := x }) value
  | "created_at" => setInteger column (fun r x => { r with createdAt := x }) value
  | "picked_at" => setTime? (fun r x => { r with pickedAt := x }) value
  | "succeeded_at" => setTime? (fun r x => { r with succeededAt := x }) value
  | "failed_at" => setTime? (fun r x => { r with failedAt := x }) value
  | "retry_count" => setInteger column (fun r x => { r with retryCount := x }) value
  | "delay_until" => setTime? (fun r x => { r with delayUntil := x }) value
  | "worker_name" => setText? (fun r x => { r with workerName := x }) value
  | "worker_version" => setText? (fun r x => { r with workerVersion := x }) value
  | "response_id" => setId? (fun r x => { r with responseId := x }) value
  | _ => none

end AttemptRow

namespace Tables

/-- The rules that a changed row must obey. -/
def checkEdited (t : Tables) (old new : AttemptRow) : Except StatementError Unit :=
  let others := t.attempts.filter fun r => r.attemptId != old.attemptId
  if new.retryCount < old.retryCount then .error .decreasingRetryCount
  else if !old.isOpen then .error .terminalAttempt
  else if new.succeededAt.isSome && new.failedAt.isSome then
    .error (.checkFailed "succeeded_at IS NULL OR failed_at IS NULL")
  else if others.any (·.attemptId == new.attemptId) then
    .error (.duplicate "request_attempt.request_attempt_id")
  else if others.any (·.dispatchKey == new.dispatchKey) then
    .error (.duplicate "request_attempt.dispatch_key")
  else if t.referencesUnchecked then .ok ()
  else if new.eventId ≠ old.eventId ∧ (t.event? new.eventId).isNone then .error .brokenReference
  else if new.subscriptionId ≠ old.subscriptionId ∧
      (t.subscription? new.subscriptionId).isNone then .error .brokenReference
  else if new.attemptId ≠ old.attemptId ∧ t.responses.any (·.attemptId == old.attemptId) then
    .error .brokenReference
  else .ok ()

/-- Changes an attempt, and gives the number of rows that were changed. -/
def editAttempt (t : Tables) (id : Uuid) (edit : AttemptRow.Edit) :
    Except StatementError (Nat × Tables) :=
  match t.attempt? id with
  | none => .ok (0, t)
  | some old =>
    match edit old with
    | .error e => .error (if old.isOpen then e else .terminalAttempt)
    | .ok new =>
      match t.checkEdited old new with
      | .error e => .error e
      | .ok () =>
        let change := fun r : AttemptRow => if r.attemptId = id then new else r
        .ok (1, { t with attempts := t.attempts.map change })

/-- A recorded response cannot be changed. -/
def editResponse (t : Tables) (id : Uuid) : Except StatementError (Nat × Tables) :=
  if (t.response? id).isSome then .error .immutableResponse else .ok (0, t)

end Tables

namespace Engine

def editAttempt (id : Uuid) (edit : AttemptRow.Edit) : Engine Nat := atomically do
  touch .attempt
  statement (·.editAttempt id edit)

def editResponse (id : Uuid) : Engine Nat := atomically do
  touch .response
  statement (·.editResponse id)

end Engine
end WebhookDelivery
