import WebhookDelivery.Service
import WebhookDelivery.Snapshot
import WebhookDelivery.Snapshot.Build
import WebhookDelivery.Store.Edit

/-!
# WebhookDelivery.Session

Operations one after the other on one world. A session keeps claims under names, so that they can be
finished later and in another order, and the units of workers, so that each knows from one turn to
the next when it is to reap.
-/

namespace WebhookDelivery

/-- `workers` holds the settings of workers by name; a worker without settings has the default
ones. -/
structure Session where
  world : World
  claims : List (String × Claim)
  units : List ((String × Nat) × WorkerUnit)
  policy : RetrySettings
  workers : List (String × Json)
  hasService : Bool

namespace Session

def start (world : World) (policy : RetrySettings) (workers : List (String × Json)) : Session :=
  ⟨world, [], [], policy, workers, true⟩

/-- An operation in a session, which leaves its mark also where it breaks off. -/
abbrev Run := ExceptT OperationError (StateM Session)

variable {α : Type}

def lift (body : Engine α) : Run α := fun s =>
  let (r, w) := body.run s.world
  (r, { s with world := w })

/-- The result of an operation as a value. -/
def attempt? (body : Run α) : Run (Except OperationError α) := fun s =>
  let (r, s) := body s
  (.ok r, s)

def changeStore (f : Store → Store) : Run Unit :=
  modify fun s => { s with world := { s.world with store := f s.world.store } }

/-- Closes the store and opens it again, with new units of all workers. -/
def reopen : Run Unit := do
  changeStore fun store => store.close.connect
  modify fun s => { s with units := [] }

/-- The unit of a worker's name and a number, started if it was not. -/
def unit (key : String × Nat) : Run WorkerUnit := do
  let s ← get
  match Entries.get? s.units key with
  | some u => return u
  | none =>
    let settings ← lift (Engine.buildRecord WorkerSettings.read
      ((Entries.get? s.workers key.1).getD (.obj [])))
    lift (Client.announce settings)
    let u : WorkerUnit := ⟨settings, s.policy, key.2, none⟩
    modify fun s => { s with units := Entries.put s.units key u }
    return u

/-- One turn of a unit. -/
def runUnit (key : String × Nat) : Run Bool := do
  let u ← unit key
  let result ← fun s : Session =>
    let (result, u, w) := u.runOnce s.world
    (.ok result, { s with world := w, units := Entries.put s.units key u })
  match result with
  | .ok processed => return processed
  | .error e => throw e

def claim? (name : String) : Run (Option Claim) := do return Entries.get? (← get).claims name

/-- Claims the next attempt. A claim that is given a name takes the place of the one before it. -/
def claim (c : Claimant) (now : Option Int) (name : Option String) : Run (Option Claim) := do
  let claim ← lift do Engine.claimNext c (now.getD (← Engine.clock))
  match name, claim with
  | some name, some claim => modify fun s => { s with claims := Entries.put s.claims name claim }
  | some name, none => modify fun s => { s with claims := s.claims.filter (·.1 != name) }
  | none, _ => pure ()
  return claim

/-- Runs operations as one transaction, or as part of the one that is under way. -/
def atomically (body : Run α) : Run α := fun s =>
  let store := s.world.store
  if !store.isOpen then (.error .storeClosed, s)
  else if store.inTransaction then body s
  else
    let world := { s.world with store := { store with inTransaction := true } }
    let (result, t) := body { s with world := world }
    let (result, w) := Engine.settle store.tables result t.world
    (result, { t with world := w })

/-- Runs operations in turn, of which a strict run ends with the first that breaks off. -/
def inTurn (strict : Bool) : List (Run α) → Run (List (Except OperationError α))
  | [] => pure []
  | body :: rest => do
    match ← attempt? body with
    | .ok x => return .ok x :: (← inTurn strict rest)
    | .error e => if strict then throw e else return .error e :: (← inTurn strict rest)

/-- Runs operations as one transaction, which may be abandoned at its end. -/
def transaction (strict abandoned : Bool) (steps : List (Run α)) :
    Run (List (Except OperationError α)) :=
  atomically do
    let results ← inTurn strict steps
    if abandoned then throw .abandoned else return results

def readWithStatus (now : Int) (row : AttemptRow) : Except RecordError (Attempt × AttemptStatus) :=
  match row.read with
  | .error e => .error e
  | .ok a =>
    match a.statusAt (.utc now) with
    | .error e => .error (.time e)
    | .ok status => .ok (a, status)

/-- The attempts of the store by identifier, each with its status. -/
def overview (w : World) : Except OperationError (List (Attempt × AttemptStatus)) :=
  let check : Engine Unit := Engine.atomically (Engine.touch .attempt)
  match (check.run w).1 with
  | .error e => .error e
  | .ok () =>
    let rows := w.store.tables.attempts.mergeSort fun a b => a.attemptId.le b.attemptId
    (rows.mapM (readWithStatus w.clock)).mapError .record

end Session

instance : Snapshot Claim where
  snapshot c := .obj [("attempt", snapshot c.attempt), ("event_id", snapshot c.event.eventId),
    ("subscription_id", snapshot c.subscription.subscriptionId)]

end WebhookDelivery
