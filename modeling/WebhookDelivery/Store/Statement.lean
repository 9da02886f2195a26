import WebhookDelivery.Store.Basic

/-!
# WebhookDelivery.Store.Statement

The single statements on the tables. A statement that fails changes nothing. Insertions of events
and attempts ignore a row whose identifier or key is taken.
-/

namespace WebhookDelivery

/-- Why a statement is refused. -/
inductive StatementError where
  | brokenReference
  | duplicateResponse
  | terminalAttempt
  | decreasingRetryCount
  | immutableResponse
  | checkFailed (condition : String)
  | notNull (column : String)
  | duplicate (column : String)
  | missingTable (name : TableName)
  deriving DecidableEq, Repr

namespace StatementError

def message : StatementError → String
  | brokenReference => "FOREIGN KEY constraint failed"
  | duplicateResponse => "UNIQUE constraint failed: response.response_id"
  | terminalAttempt => "request attempt is terminal"
  | decreasingRetryCount => "retry_count cannot decrease"
  | immutableResponse => "responses are immutable"
  | checkFailed condition => "CHECK constraint failed: " ++ condition
  | notNull column => "NOT NULL constraint failed: " ++ column
  | duplicate column => "UNIQUE constraint failed: " ++ column
  | missingTable name => "no such table: " ++ name.write

/-- The store itself is damaged, in place of a rule being broken. -/
def isOperational : StatementError → Bool
  | missingTable _ => true
  | _ => false

end StatementError

/-- A worker that asks for an attempt. -/
structure Claimant where
  name : String
  version : String
  dedicated : Bool
  deriving DecidableEq, Repr

def AttemptRow.claimedBy (r : AttemptRow) (c : Claimant) (now : Int) : AttemptRow :=
  { r with pickedAt := some now, workerName := some c.name, workerVersion := some c.version }

/-- The order in which attempts are claimed: by the time they are due, then by their creation. -/
def AttemptRow.claimsBefore (a b : AttemptRow) : Bool :=
  let dueA := a.delayUntil.getD a.createdAt
  let dueB := b.delayUntil.getD b.createdAt
  dueA < dueB || (dueA == dueB && a.createdAt ≤ b.createdAt)

/-- What becomes of an attempt after an execution. -/
inductive Outcome where
  | succeeded (time : Int)
  | retried (due : Int)
  | failed (time : Int)
  deriving DecidableEq, Repr

def Outcome.apply (o : Outcome) (responseId : Uuid) (r : AttemptRow) : AttemptRow :=
  match o with
  | succeeded time => { r with succeededAt := some time, responseId := some responseId }
  | retried due =>
    { r with retryCount := r.retryCount + 1, delayUntil := some due, pickedAt := none,
             workerName := none, workerVersion := none, responseId := some responseId }
  | failed time => { r with failedAt := some time, responseId := some responseId }

/-- The row is still held by the claim under which it was picked. -/
def AttemptRow.holdsClaim (id : Uuid) (pickedAt : Int) (worker : Option String)
    (r : AttemptRow) : Bool :=
  r.attemptId == id && r.pickedAt == some pickedAt && r.workerName == worker && r.isOpen

/-- Newest first; of equal times by identifier. -/
def AttemptRow.listsBefore (a b : AttemptRow) : Bool :=
  b.createdAt < a.createdAt || (a.createdAt == b.createdAt && a.attemptId.le b.attemptId)

/-- What a listing of an application's attempts is restricted to. -/
structure AttemptFilter where
  event : Option Uuid
  subscription : Option Uuid
  status : Option AttemptStatus
  minCreatedAt : Option Int
  maxCreatedAt : Option Int
  deriving DecidableEq, Repr

/-- A truth value of a query; nothing where it is not known. -/
abbrev Truth := Option Bool

namespace Truth

def both : Truth → Truth → Truth
  | some false, _ | _, some false => some false
  | some true, some true => some true
  | _, _ => none

def either : Truth → Truth → Truth
  | some true, _ | _, some true => some true
  | some false, some false => some false
  | _, _ => none

def isNull (column : Option Int) : Truth := some column.isNone

def isNotNull (column : Option Int) : Truth := some column.isSome

/-- A comparison with what is not there is not known. -/
def compare (column : Option Int) (condition : Int → Bool) : Truth := column.map condition

/-- The sum of what is known, where a truth is a one; nothing where nothing is known. -/
def sum (truths : List Truth) : Option Nat :=
  match truths.filterMap id with
  | [] => none
  | known => some (known.countP id)

end Truth

/-- The condition under which a row adds to the number of a status. -/
def AttemptRow.countsAs (r : AttemptRow) (now : Int) : AttemptStatus → Truth
  | .failed => .isNotNull r.failedAt
  | .successful => .isNotNull r.succeededAt
  | .inProgress =>
    .both (.both (.isNull r.failedAt) (.isNull r.succeededAt)) (.isNotNull r.pickedAt)
  | .waiting =>
    .both (.both (.both (.isNull r.failedAt) (.isNull r.succeededAt)) (.isNull r.pickedAt))
      (.compare r.delayUntil (now < ·))
  | .pending =>
    .both (.both (.both (.isNull r.failedAt) (.isNull r.succeededAt)) (.isNull r.pickedAt))
      (.either (.isNull r.delayUntil) (.compare r.delayUntil (· ≤ now)))

def AttemptFilter.admits (f : AttemptFilter) (now : Int) (r : AttemptRow) : Bool :=
  f.event.all (· == r.eventId) && f.subscription.all (· == r.subscriptionId) &&
    f.status.all (r.hasStatus now ·) && f.minCreatedAt.all (· ≤ r.createdAt) &&
    f.maxCreatedAt.all (r.createdAt < ·)

namespace Tables

/-- Tells whether the event was new. -/
def insertEvent (t : Tables) (e : Event) : Bool × Tables :=
  if (t.event? e.eventId).isSome then (false, t) else (true, { t with events := t.events ++ [e] })

/-- Changes the rows that a condition selects. -/
def updateRows {α : Type} (select : α → Bool) (change : α → α) (rows : List α) : List α :=
  rows.map fun r => if select r then change r else r

theorem updateRows_eq_self {α : Type} {select : α → Bool} {change : α → α} {rows : List α}
    (h : rows.any select = false) : updateRows select change rows = rows := by
  induction rows with
  | nil => rfl
  | cons r rest ih =>
    rw [List.any_cons, Bool.or_eq_false_iff] at h
    rw [updateRows, List.map_cons, ← updateRows, ih h.2]
    simp [h.1]

def markDispatched (t : Tables) (id : Uuid) (time : Int) : Bool × Tables :=
  let select := fun e : Event => e.eventId == id && e.dispatchedAt.isNone
  (t.events.any select,
    { t with events := updateRows select (fun e => { e with dispatchedAt := some time }) t.events })

/-- A known subscription keeps its application and its time of creation. -/
def saveSubscription (t : Tables) (s : Subscription) : Tables :=
  let s := s.toRow
  let select := fun old : Subscription => old.subscriptionId == s.subscriptionId
  let change := fun old : Subscription =>
    { s with applicationId := old.applicationId, createdAt := old.createdAt }
  if t.subscriptions.any select then
    { t with subscriptions := updateRows select change t.subscriptions }
  else { t with subscriptions := t.subscriptions ++ [s] }

def setEnabled (t : Tables) (id : Uuid) (enabled : Bool) : Bool × Tables :=
  let select := fun s : Subscription => s.subscriptionId == id
  let change := fun s : Subscription => { s with isEnabled := enabled }
  (t.subscriptions.any select,
    { t with subscriptions := updateRows select change t.subscriptions })

/-- Tells whether the attempt was new. -/
def insertAttempt (t : Tables) (r : AttemptRow) : Except StatementError (Bool × Tables) :=
  if t.attempts.any fun old =>
      old.attemptId == r.attemptId || old.dispatchKey == r.dispatchKey then .ok (false, t)
  else if !t.referencesUnchecked &&
      ((t.event? r.eventId).isNone || (t.subscription? r.subscriptionId).isNone) then
    .error .brokenReference
  else .ok (true, { t with attempts := t.attempts ++ [r] })

/-- The attempt is due and free, and its subscription is enabled and in the worker's scope. -/
def isClaimable (t : Tables) (c : Claimant) (now : Int) (r : AttemptRow) : Bool :=
  r.isFree && r.isDue now &&
    t.subscriptions.any fun s =>
      s.subscriptionId == r.subscriptionId && s.isEnabled && s.inScope c.name c.dedicated

/-- The first of the least elements of a list. -/
def least? {α : Type} (le : α → α → Bool) : List α → Option α
  | [] => none
  | x :: rest =>
    match least? le rest with
    | none => some x
    | some y => if le x y then some x else some y

theorem least?_eq_none_iff {α : Type} {le : α → α → Bool} {xs : List α} :
    least? le xs = none ↔ xs = [] := by
  cases xs with
  | nil => simp [least?]
  | cons x rest =>
    simp only [least?]
    split
    · simp
    · split <;> simp

theorem mem_of_least? {α : Type} {le : α → α → Bool} {xs : List α} {x : α}
    (h : least? le xs = some x) : x ∈ xs := by
  induction xs generalizing x with
  | nil => cases h
  | cons y rest ih =>
    simp only [least?] at h
    split at h
    · cases h
      exact List.mem_cons_self
    · rename_i z hz
      split at h
      · cases h
        exact List.mem_cons_self
      · cases h
        exact List.mem_cons_of_mem _ (ih hz)

def nextClaim? (t : Tables) (c : Claimant) (now : Int) : Option AttemptRow :=
  least? AttemptRow.claimsBefore (t.attempts.filter (t.isClaimable c now))

/-- Claims the next attempt and gives its new row. -/
def claim (t : Tables) (c : Claimant) (now : Int) : Option AttemptRow × Tables :=
  match t.nextClaim? c now with
  | none => (none, t)
  | some r =>
    let select := fun old : AttemptRow => old.attemptId == r.attemptId
    (some (r.claimedBy c now),
      { t with attempts := updateRows select (fun old => old.claimedBy c now) t.attempts })

/-- Tells whether the claim was still held. -/
def release (t : Tables) (id : Uuid) (pickedAt : Int) (worker : Option String) (o : Outcome)
    (responseId : Uuid) : Bool × Tables :=
  let select := AttemptRow.holdsClaim id pickedAt worker
  (t.attempts.any select, { t with attempts := updateRows select (o.apply responseId) t.attempts })

def insertResponse (t : Tables) (r : Response) : Except StatementError Tables :=
  if (t.response? r.responseId).isSome then .error .duplicateResponse
  else if !t.referencesUnchecked && (t.attempt? r.attemptId).isNone then .error .brokenReference
  else .ok { t with responses := t.responses ++ [r.toRow] }

/-- The attempts whose response does not exist. -/
def dangling (t : Tables) : List (Uuid × Uuid) :=
  t.attempts.filterMap fun r =>
    match r.responseId with
    | none => none
    | some id => if (t.response? id).isSome then none else some (r.attemptId, id)

/-- References to responses are checked when a transaction ends; those that were broken before it
are let be. -/
def keepsReferences (before after : Tables) : Bool :=
  after.referencesUnchecked || after.dangling.all fun p => before.dangling.contains p

/-! ## Queries -/

/-- At most so many rows; all of them where the limit is negative. -/
def limited {α : Type} (limit : Int) (rows : List α) : List α :=
  if limit < 0 then rows else rows.take limit.toNat

theorem mem_of_mem_limited {α : Type} {limit : Int} {rows : List α} {r : α}
    (h : r ∈ limited limit rows) : r ∈ rows := by
  unfold limited at h
  split at h
  · exact h
  · exact List.mem_of_mem_take h

def undispatched (t : Tables) (limit : Int) : List Event :=
  limited limit ((t.events.filter (·.dispatchedAt.isNone)).mergeSort fun a b =>
    a.receivedAt ≤ b.receivedAt)

/-- An application's subscriptions, oldest first. -/
def subscriptionsOf (t : Tables) (application : Uuid) (enabledOnly : Bool) : List Subscription :=
  (t.subscriptions.filter fun s =>
    s.applicationId == application && (!enabledOnly || s.isEnabled)).mergeSort fun a b =>
      a.createdAt.micros < b.createdAt.micros ||
        (a.createdAt.micros == b.createdAt.micros && a.subscriptionId.le b.subscriptionId)

/-- The open attempt of an event and a subscription that was created last. -/
def openAttempt? (t : Tables) (event subscription : Uuid) : Option AttemptRow :=
  least? (fun a b => b.createdAt ≤ a.createdAt) (t.attempts.filter fun r =>
    r.eventId == event && r.subscriptionId == subscription && r.isOpen)

def attemptsOf (t : Tables) (application : Uuid) (f : AttemptFilter) (now : Int)
    (limit offset : Int) : List AttemptRow :=
  limited limit (((t.attempts.filter fun r =>
    r.applicationId == application && f.admits now r).mergeSort AttemptRow.listsBefore).drop offset.toNat)

/-- The number of an application's rows with a status; none where the sum is not there. -/
def countOf (t : Tables) (application : Uuid) (now : Int) (status : AttemptStatus) : Nat :=
  (Truth.sum ((t.attempts.filter (·.applicationId == application)).map
    (·.countsAs now status))).getD 0

/-- Open claims that were picked before a time, oldest first. -/
def staleClaims (t : Tables) (before : Int) (limit : Int) : List AttemptRow :=
  limited limit ((t.attempts.filter fun r => r.isOpen && r.pickedAt.any (· < before)).mergeSort
    fun a b => a.pickedAt.getD 0 ≤ b.pickedAt.getD 0)

/-- The responses of an attempt, oldest first; of equal times in the order of insertion. -/
def responsesOf (t : Tables) (attempt : Uuid) : List Response :=
  (t.responses.filter (·.attemptId == attempt)).mergeSort fun a b =>
    a.createdAt.micros ≤ b.createdAt.micros

end Tables
end WebhookDelivery
