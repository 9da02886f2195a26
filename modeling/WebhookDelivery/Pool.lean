import WebhookDelivery.Worker

/-!
# WebhookDelivery.Pool

The units of one worker process, which take turns until they are told to stop or the store fails.
-/

namespace WebhookDelivery

namespace WorkerUnit

/-- Reaps if it is time to, then claims and processes one attempt. The unit that results is to be
used from then on, whether or not this succeeds. -/
def runOnce (u : WorkerUnit) (w : World) : Except OperationError Bool × WorkerUnit × World :=
  let now := w.clock
  match u.reapIfDue now w with
  | (.error e, w) => (.error e, u, w)
  | (.ok u, w) =>
    let (result, w) := u.claimAndProcess now w
    (result, u, w)

def fields (u : WorkerUnit) : LogFields :=
  Log.workerFields u.settings.name u.unitId (some u.version)

/-- One turn of a unit in a pool. A unit that cannot use the store says so. -/
def takeTurn (u : WorkerUnit) (w : World) : Except OperationError Bool × WorkerUnit × World :=
  let shadowed := w.log.shadowed u.fields
  let (result, u, w) := u.runOnce { w with log := w.log.bind u.fields }
  let log :=
    match result with
    | .error e =>
      if e.isStorage then
        w.log.write .error logger "Attempt Store failed, stopping unit" [] (some e)
      else w.log
    | .ok _ => w.log
  (result, u, { w with log := log.unshadow u.fields shadowed })

def logStarted (u : WorkerUnit) : Engine Unit :=
  Engine.withFields u.fields
    (Engine.log .info logger "Worker unit started" [("dedicated", .bool u.settings.dedicated)])

def logStopped (u : WorkerUnit) : Engine Unit :=
  Engine.withFields u.fields (Engine.log .info logger "Worker unit stopped" [])

end WorkerUnit

namespace Pool

/-- The units of a pool, numbered from 0. -/
def units (settings : WorkerSettings) (policy : RetrySettings) : List WorkerUnit :=
  (List.range settings.concurrency.toNat).map fun i => ⟨settings, policy, Int.ofNat i, none⟩

/-- One turn of each unit. Tells whether any of them processed an attempt. -/
def takeTurns : List WorkerUnit → World → Except OperationError Bool × List WorkerUnit × World
  | [], w => (.ok false, [], w)
  | u :: rest, w =>
    match u.takeTurn w with
    | (.error e, u, w) => (.error e, u :: rest, w)
    | (.ok processed, u, w) =>
      let (result, rest, w) := takeTurns rest w
      (result.map (processed || ·), u :: rest, w)

/-- Turns until the pool is told to stop or nothing is left to do, at most so many of each unit. -/
def takeRounds (stop : World → Bool) : (rounds : Nat) → List WorkerUnit → World →
    Except OperationError Unit × World
  | 0, _, w => (.ok (), w)
  | rounds + 1, units, w =>
    if stop w then (.ok (), w)
    else match takeTurns units w with
      | (.error e, _, w) => (.error e, w)
      | (.ok false, _, w) => (.ok (), w)
      | (.ok true, units, w) => takeRounds stop rounds units w

/-- No attempt is executed more often than this without a request being sent for it. -/
def turnsPerAttempt : Nat := 102

/-- Runs a pool until so many requests have been sent. Units that find nothing to do wait, so a pool
that can send no more requests is stopped while it waits. -/
def run (settings : WorkerSettings) (policy : RetrySettings) (stopAfter : Nat) : Engine Unit := do
  Client.announce settings
  let units := units settings policy
  let name := ("worker_name", Json.str settings.name)
  Engine.log .info WorkerUnit.logger "Worker pool starting"
    [name, ("units", .int units.length), ("dedicated", .bool settings.dedicated)]
  let w ← get
  let stop := fun w : World => stopAfter ≤ w.network.requests.length
  if stop w then
    units.forM fun u => do u.logStarted; u.logStopped
  else
    units.forM WorkerUnit.logStarted
    let rounds := stopAfter + turnsPerAttempt * (w.store.tables.attempts.length + 1)
    let (result, w) := takeRounds stop rounds units (← get)
    set w
    match result with
    | .ok () => units.forM WorkerUnit.logStopped
    | .error e =>
      Engine.log .info WorkerUnit.logger "Worker pool stopped" [name]
      throw e
  Engine.log .info WorkerUnit.logger "Worker pool stopped" [name]

end Pool
end WebhookDelivery
