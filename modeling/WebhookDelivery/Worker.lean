import WebhookDelivery.Delivery.Client
import WebhookDelivery.Store.Deliveries

/-!
# WebhookDelivery.Worker

One unit of a worker: it releases claims that were abandoned, claims the next attempt, executes it
and records the outcome.
-/

namespace WebhookDelivery

/-- The version that is recorded where the settings name none. -/
def engineVersion : String := "0.1.0"

/-- A unit of a worker; abandoned claims are looked for from `nextReap` on. -/
structure WorkerUnit where
  settings : WorkerSettings
  policy : RetrySettings
  unitId : Int
  nextReap : Option ClockTime

namespace WorkerUnit

def logger : String := "hook0.webhooks.worker"

/-- A version that is empty counts as none. -/
def version (u : WorkerUnit) : String :=
  match u.settings.version with
  | some v => if v.isEmpty then engineVersion else v
  | none => engineVersion

def claimant (u : WorkerUnit) : Claimant := ⟨u.settings.name, u.version, u.settings.dedicated⟩

/-- Seconds between two polls that find nothing. The first unit polls often, the others only matter
under load. -/
def idleSeconds (unitId : Int) (least most : Float) : Float :=
  if unitId = 0 then least else if unitId ≤ 2 then (least + most) / 2.0 else most

def idleDelay (u : WorkerUnit) : Float := idleSeconds u.unitId u.settings.minPoll u.settings.maxPoll

/-- What the retry policy says of a response, if it is a failure. -/
def decide (u : WorkerUnit) (claim : Claim) (r : Response) (now : Int) :
    Engine (Option RetryDecision) := do
  match r.failure? with
  | none => return none
  | some failure =>
    let w ← get
    let (decision, draws) := u.policy.decide w.draws claim.subscription.retrySchedule
      claim.attempt.retryCount failure (.utc now)
    set { w with draws := draws }
    some <$> Engine.ofExcept .retry decision

/-- The line that tells what became of an attempt. -/
def logDecision (r : Response) : Option RetryDecision → Engine Unit
  | none => Engine.log .info logger "Attempt succeeded" []
  | some (.giveUp why) =>
    Engine.log .warning logger "Attempt failed" [("reason", .str why.reason)]
  | some (.retryAt time _) =>
    Engine.log .info logger "Attempt scheduled for retry"
      [("error", .ofString? (r.error.map FailureKind.code)), ("retry_at", .str time.write)]

/-- Records a response. Tells whether the claim was still held. -/
def finalize (u : WorkerUnit) (claim : Claim) (r : Response) (now : Int) : Engine Bool := do
  let decision ← u.decide claim r now
  let retryAt :=
    match decision with
    | some (.retryAt time _) => some time.micros
    | _ => none
  if ← Engine.finalize claim.attempt r now retryAt then
    logDecision r decision
    return true
  else return false

/-- Executes a claimed attempt and records the outcome. -/
def process (u : WorkerUnit) (claim : Claim) : Engine Bool := do
  let now ← Engine.clock
  let r ← Client.execute u.settings claim.attempt claim.event claim.subscription now
  u.finalize claim r (← Engine.clock)

/-- Milliseconds from one instant to a later one. -/
def millisBetween (earlier later : Int) : Int :=
  max ((Double.truncate? (Double.ofRatio (later - earlier) 1000000 * 1000.0)).getD 0) 0

/-- The response that is recorded for an abandoned claim. -/
def abandonedResponse (a : Attempt) (now : Int) : Engine Response := do
  let id ← Engine.drawId .response
  return {
    responseId := id, attemptId := a.attemptId, applicationId := a.applicationId,
    error := some .timeout, httpCode := none, headers := none, body := none,
    elapsedMs := millisBetween ((a.pickedAt.map ClockTime.micros).getD now) now,
    createdAt := .utc now }

/-- Records each claim as timed out, and counts those that were still held. -/
def reapAll (u : WorkerUnit) (now : Int) : List Claim → Engine Nat
  | [] => pure 0
  | claim :: rest => do
    let r ← abandonedResponse claim.attempt now
    let reaped ← Engine.withFields (Log.attemptFields claim.attempt) do
      let reaped ← u.finalize claim r now
      if reaped then
        Engine.log .warning logger "Reaped stale claim"
          [("previous_worker", .ofString? claim.attempt.workerName)]
      return reaped
    return (if reaped then 1 else 0) + (← u.reapAll now rest)

/-- The number of claims that are released at once. -/
def reapLimit : Int := 100

/-- Releases the claims that are held longer than an execution may take. -/
def reap (u : WorkerUnit) (now : Int) : Engine Nat := do
  let age ← Engine.ofExcept (fun e => .record (.time e))
    (ClockTime.microsOfSeconds? u.settings.staleSeconds)
  let cutoff ← Engine.ofExcept (fun e => .record (.time e))
    ((ClockTime.utc now).addMicros? (-age))
  u.reapAll now (← Engine.findStale cutoff.micros reapLimit)

/-- Reaps if it is time to. The unit that results knows when to reap again. -/
def reapIfDue (u : WorkerUnit) (now : Int) : Engine WorkerUnit := do
  if u.nextReap.all (·.micros ≤ now) then
    let _ ← u.reap now
    let next ← Engine.ofExcept (fun e => .record (.time e))
      ((ClockTime.utc now).addSeconds? u.settings.maxPoll)
    return { u with nextReap := some next }
  else return u

/-- Processes a claim. An error that the store is not to blame for is logged, and the claim is held
until it is reaped. -/
def processSafely (u : WorkerUnit) (claim : Claim) : Engine Unit :=
  Engine.withFields (Log.attemptFields claim.attempt) do
    match ← Engine.attempt? (u.process claim) with
    | .ok _ => return ()
    | .error e =>
      if e.isStorage then throw e
      else Engine.logCause logger "Unexpected error processing attempt" e

/-- Claims and processes one attempt. Tells whether there was one. -/
def claimAndProcess (u : WorkerUnit) (now : Int) : Engine Bool := do
  match ← Engine.claimNext u.claimant now with
  | none => return false
  | some claim =>
    u.processSafely claim
    return true

end WorkerUnit
end WebhookDelivery
