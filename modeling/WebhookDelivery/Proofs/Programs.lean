import WebhookDelivery.Proofs.Requests

/-!
# WebhookDelivery.Proofs.Programs

Programs on the store: statements, questions and transactions in any nesting, with errors that are
caught or not.

* `Statement`: the statements that write. `Statement.writes_run`: one that is refused changes
  nothing.
* `Program`, `Program.run`: the syntax of programs, and what they do. `Program.executed` are the
  statements that succeed on the way.
* `Program.tables_run`: within a transaction, the tables show the effects of exactly these.
* `Action.program`, `Action.run_program`: the operations of the engine as programs.
-/

namespace WebhookDelivery

/-! ## Statements -/

/-- What writes to the store in one step. -/
inductive Statement where
  | insertEvent (e : Event)
  | markDispatched (id : Uuid) (time : Int)
  | saveSubscription (s : Subscription)
  | setEnabled (id : Uuid) (enabled : Bool)
  | insertAttempt (a : Attempt) (key : String)
  | claim (c : Claimant) (now : Int)
  | release (id : Uuid) (pickedAt : Int) (worker : Option String) (o : Outcome) (responseId : Uuid)
  | insertResponse (r : Response)

namespace Statement

abbrev Result : Statement → Type
  | insertEvent _ | markDispatched _ _ | setEnabled _ _ | insertAttempt _ _ | release .. => Bool
  | claim _ _ => Option AttemptRow
  | saveSubscription _ | insertResponse _ => Unit

open Engine in
def run : (s : Statement) → Engine s.Result
  | insertEvent e => do touch .event; change (·.insertEvent e)
  | markDispatched id time => do touch .event; change (·.markDispatched id time)
  | saveSubscription s => do touch .subscription; change fun t => ((), t.saveSubscription s)
  | setEnabled id enabled => do touch .subscription; change (·.setEnabled id enabled)
  | insertAttempt a key => do
    touch .attempt
    checkInteger a.retryCount
    statement (·.insertAttempt (.new a key))
  | claim c now => do touch .attempt; touch .subscription; change (·.claim c now)
  | release id pickedAt worker o responseId => do
    touch .attempt
    change (·.release id pickedAt worker o responseId)
  | insertResponse r => Engine.insertResponse r

/-- What a statement that succeeds makes of the tables. -/
def effect : Statement → Tables → Tables
  | insertEvent e, t => (t.insertEvent e).2
  | markDispatched id time, t => (t.markDispatched id time).2
  | saveSubscription s, t => t.saveSubscription s
  | setEnabled id enabled, t => (t.setEnabled id enabled).2
  | insertAttempt a key, t => t.offer (.new a key)
  | claim c now, t => (t.claim c now).2
  | release id pickedAt worker o responseId, t => (t.release id pickedAt worker o responseId).2
  | insertResponse r, t => { t with responses := t.responses ++ [r.toRow] }

/-- The tables after statements that succeeded in turn. -/
def effects (statements : List Statement) (t : Tables) : Tables :=
  statements.foldl (fun t s => s.effect t) t

theorem effects_append (first second : List Statement) (t : Tables) :
    effects (first ++ second) t = effects second (effects first t) := List.foldl_append

end Statement

namespace Engine

variable {α β : Type}

/-- All that `body` does to the store is a change of the tables where it succeeds. -/
def Writes (body : Engine α) (f : Tables → Tables) : Prop :=
  ∀ w, (body w).2.store = match (body w).1 with
    | .ok _ => { w.store with tables := f w.store.tables }
    | .error _ => w.store

/-- A question before a change may keep it from happening. -/
theorem Writes.after {x : Engine α} {body : α → Engine β} {f : Tables → Tables} (hx : Keeps x)
    (hb : ∀ a, Writes (body a) f) : Writes (x >>= body) f := by
  intro w
  have hw := hx w
  rw [bind_apply]
  cases hr : x w with
  | mk r v =>
    rw [hr] at hw
    cases r with
    | error e => exact hw
    | ok a =>
      have hv := hb a v
      rw [show v.store = w.store from hw] at hv
      exact hv

theorem writes_change (f : Tables → α × Tables) : Writes (change f) fun t => (f t).2 := fun _ => rfl

theorem writes_statement {f : Tables → Except StatementError (α × Tables)} {g : Tables → Tables}
    (h : ∀ t x t', f t = .ok (x, t') → t' = g t) : Writes (statement f) g := by
  intro w
  rw [statement_apply]
  cases hf : f w.store.tables with
  | error e => rfl
  | ok p => rw [← h _ _ _ hf]

theorem writes_insertResponse (r : Response) :
    Writes (insertResponse r) fun t => { t with responses := t.responses ++ [r.toRow] } := by
  have hs : Writes (do
      checkInteger r.elapsedMs
      statement fun t => (t.insertResponse r).map fun t => ((), t))
      fun t => { t with responses := t.responses ++ [r.toRow] } := by
    refine .after (keeps_checkInteger _) fun _ => writes_statement fun t x t' h => ?_
    unfold Tables.insertResponse at h
    split at h
    · cases h
    · split at h <;> cases h
      rfl
  unfold insertResponse
  refine .after (keeps_touch _) fun _ => ?_
  split
  · exact .after (keeps_checkInteger _) fun _ => hs
  · exact hs

end Engine

open Engine in
/-- A statement has its effect where it succeeds, and one that is refused changes nothing. -/
theorem Statement.writes_run (s : Statement) : s.run.Writes s.effect := by
  cases s with
  | insertAttempt a key =>
    exact .after (keeps_touch _) fun _ => .after (keeps_checkInteger _) fun _ =>
      writes_statement fun t x t' h => (Tables.insertAttempt_eq_ok h).1
  | claim c now =>
    exact .after (keeps_touch _) fun _ => .after (keeps_touch _) fun _ => writes_change _
  | insertResponse r => exact writes_insertResponse r
  | _ => exact .after (keeps_touch _) fun _ => writes_change _

/-! ## Programs -/

/-- A program that gives a value: a question, which leaves the store alone and may fail; a
statement; a program and what follows its value; a transaction, or a part of the one that is under
way; or a program whose error is caught. -/
inductive Program : Type → Type 1 where
  | ask {α : Type} (x : Engine α) (quiet : x.Keeps) : Program α
  | write (s : Statement) : Program s.Result
  | andThen {α β : Type} (p : Program α) (next : α → Program β) : Program β
  | block {α : Type} (body : Program α) : Program α
  | attempt {α : Type} (body : Program α) : Program (Except OperationError α)

/-- A world in which a transaction is under way. -/
def World.begun (w : World) : World := { w with store := { w.store with inTransaction := true } }

theorem World.begun_eq_self {w : World} (h : w.store.inTransaction = true) : w.begun = w := by
  unfold begun
  rw [← h]

namespace Program

variable {α β : Type}

instance : Monad Program where
  pure a := ask (pure a) (.pure a)
  bind p next := p.andThen next

def run {α : Type} : Program α → Engine α
  | ask x _ => x
  | write s => s.run
  | andThen p next => p.run >>= fun a => (next a).run
  | block body => Engine.atomically body.run
  | attempt body => Engine.attempt? body.run

/-- The statements that succeed when a program is run, in their order. -/
def executed {α : Type} : Program α → World → List Statement
  | ask _ _, _ => []
  | write s, w => if (s.run w).1.isOk then [s] else []
  | andThen p next, w => p.executed w ++
    match p.run w with
    | (.ok a, v) => (next a).executed v
    | (.error _, _) => []
  | block body, w => if w.store.isOpen then body.executed w.begun else []
  | attempt body, w => body.executed w

/-- Inside a transaction nothing is undone: whether or not a program fails, the tables show the
effects of the statements that succeeded in it. -/
theorem tables_run (p : Program α) {w : World} (ho : w.store.isOpen = true)
    (ht : w.store.inTransaction = true) :
    (p.run w).2.store =
      { w.store with tables := Statement.effects (p.executed w) w.store.tables } := by
  induction p generalizing w with
  | ask x quiet => exact quiet w
  | write s =>
    have hw := s.writes_run w
    cases hr : (s.run w).1 with
    | error e =>
      rw [hr] at hw
      simp only [run, executed, hr]
      exact hw
    | ok a =>
      rw [hr] at hw
      simp only [run, executed, hr]
      exact hw
  | andThen p next ihp ihn =>
    have hp := ihp ho ht
    simp only [run, executed]
    rw [Engine.bind_apply]
    cases hr : p.run w with
    | mk r v =>
      rw [hr] at hp
      cases r with
      | error e => rw [List.append_nil]; exact hp
      | ok a =>
        dsimp only at hp ⊢
        have hv := ihn a (w := v) (by rw [hp]; exact ho) (by rw [hp]; exact ht)
        rw [hv, hp, Statement.effects_append]
  | block body ih =>
    have hrun : (block body).run w = body.run w := by
      rw [run, Engine.atomically, if_neg (by simp [ho]), if_pos ht]
    rw [hrun, executed, if_pos ho, World.begun_eq_self ht]
    exact ih ho ht
  | attempt body ih => exact ih ho ht

/-! ## The operations of the engine -/

def raise (e : OperationError) : Program α := ask (throw e) (.throw e)

def insertEvent (e : Event) : Program Bool := block (write (.insertEvent e))

def markDispatched (id : Uuid) (time : Int) : Program Bool :=
  block (write (.markDispatched id time))

def saveSubscription (s : Subscription) : Program Unit := block (write (.saveSubscription s))

def setEnabled (id : Uuid) (enabled : Bool) : Program Bool :=
  block (write (.setEnabled id enabled))

def insertAttempt (a : Attempt) (key : String) : Program Bool :=
  block (write (.insertAttempt a key))

def drawId (kind : IdKind) : Program Uuid := ask (Engine.drawId kind) fun _ => rfl

def log (level : LogLevel) (logger event : String) (fields : LogFields) : Program Unit :=
  ask (Engine.log level logger event fields) (Engine.keeps_log level logger event fields)

def getEvent (id : Uuid) (application : Option Uuid) : Program (Option Event) :=
  ask (Engine.getEvent id application) Engine.keeps_getRow

def getSubscription (id : Uuid) (application : Option Uuid) : Program (Option Subscription) :=
  ask (Engine.getSubscription id application) Engine.keeps_getRow

def listSubscriptions (application : Uuid) (enabledOnly : Bool) : Program (List Subscription) :=
  ask (Engine.listSubscriptions application enabledOnly)
    (Engine.keeps_readRows (Engine.keeps_query _ _))

def findOpenAttempt (event subscription : Uuid) : Program (Option Attempt) :=
  ask (Engine.findOpenAttempt event subscription) Engine.keeps_getRow

/-- A program for each member of a list in turn. -/
def each (f : α → Program β) : List α → Program (List β)
  | [] => pure []
  | a :: rest => do
    let b ← f a
    let more ← each f rest
    return b :: more

theorem run_each {f : α → Program β} {g : α → Engine β} (h : ∀ a, (f a).run = g a) (as : List α) :
    (each f as).run = as.mapM g := by
  induction as with
  | nil => rfl
  | cons a rest ih =>
    rw [List.mapM_cons, ← ih, ← h]
    rfl

def createAttempts (event : Event) (now due : Int) : List Subscription → Program (List Attempt)
  | [] => pure []
  | s :: rest => do
    let id ← drawId .attempt
    let attempt := Attempt.new id event.applicationId event.eventId s.subscriptionId now due
    let isNew ← insertAttempt attempt (DispatchKey.initial event.eventId s.subscriptionId).write
    let more ← createAttempts event now due rest
    return if isNew then attempt :: more else more

theorem run_createAttempts (event : Event) (now due : Int) (subscriptions : List Subscription) :
    (createAttempts event now due subscriptions).run =
      Engine.createAttempts event now due subscriptions := by
  induction subscriptions with
  | nil => rfl
  | cons s rest ih =>
    rw [Engine.createAttempts, ← ih]
    rfl

def undispatchedEvent? (event : Event) : Program (Option Event) := do
  if ← insertEvent event then return some event
  else
    match ← getEvent event.eventId none with
    | some stored => return if stored.dispatchedAt.isSome then none else some stored
    | none => return none

theorem run_undispatchedEvent? (event : Event) :
    (undispatchedEvent? event).run = Engine.undispatchedEvent? event := by
  unfold Engine.undispatchedEvent? undispatchedEvent?
  refine bind_congr fun isNew => ?_
  cases isNew with
  | true => rfl
  | false =>
    refine bind_congr fun stored => ?_
    cases stored <;> rfl

def ingest (event : Event) (now : Int) : Program (List Attempt) := do
  let done ← block do
    match ← undispatchedEvent? event with
    | none => return none
    | some event =>
      let subscriptions ← listSubscriptions event.applicationId true
      let matched := Subscription.matching subscriptions event
      let created ← createAttempts event now (max now event.occurredAt) matched
      let _ ← markDispatched event.eventId now
      return some (event, matched, created)
  match done with
  | none => return []
  | some (event, matched, created) =>
    log .info Engine.dispatchLogger "Event dispatched"
      [("event_id", .str event.eventId.write), ("event_type", .str event.eventType),
        ("matched", .int matched.length), ("created", .int created.length)]
    return created

theorem run_ingest (event : Event) (now : Int) :
    (ingest event now).run = Engine.ingest event now := by
  unfold Engine.ingest ingest
  refine (congrArg (· >>= _) (congrArg Engine.atomically ?_)).trans (bind_congr fun done => ?_)
  · rw [← run_undispatchedEvent?]
    refine bind_congr fun found => ?_
    cases found with
    | none => rfl
    | some event =>
      refine bind_congr fun subscriptions => ?_
      dsimp only
      rw [← run_createAttempts]
      rfl
  · rcases done with _ | ⟨event, matched, created⟩ <;> rfl

def replayTo (eventId application : Uuid) (now : Int) (s : Subscription) : Program Attempt := do
  match ← findOpenAttempt eventId s.subscriptionId with
  | some existing => return existing
  | none =>
    let id ← drawId .attempt
    let attempt := Attempt.new id application eventId s.subscriptionId now now
    let draw ← drawId .replay
    let _ ← insertAttempt attempt (DispatchKey.replay eventId s.subscriptionId draw).write
    return attempt

theorem run_replayTo (eventId application : Uuid) (now : Int) (s : Subscription) :
    (replayTo eventId application now s).run = Engine.replayTo eventId application now s := by
  refine bind_congr fun existing => ?_
  cases existing <;> rfl

def replayTargets (event : Event) (application : Uuid) : Option Uuid → Program (List Subscription)
  | some id => do
    match ← getSubscription id (some application) with
    | none => raise (.engine (.notFound "Subscription" id.write))
    | some s =>
      if s.isEnabled then return [s]
      else
        raise (.engine (.validation "subscription_id"
          ("Subscription " ++ id.write ++ " is disabled")))
  | none => do
    return Subscription.matching (← listSubscriptions application true) event

theorem run_replayTargets (event : Event) (application : Uuid) (subscription : Option Uuid) :
    (replayTargets event application subscription).run =
      Engine.replayTargets event application subscription := by
  cases subscription with
  | none => rfl
  | some id =>
    refine bind_congr fun found => ?_
    cases found with
    | none => rfl
    | some s =>
      dsimp only
      split <;> rfl

def replay (eventId application : Uuid) (subscription : Option Uuid) (now : Int) :
    Program (List Attempt) := do
  let attempts ← block do
    match ← getEvent eventId (some application) with
    | none => raise (.engine (.notFound "Event" eventId.write))
    | some event =>
      let targets ← replayTargets event application subscription
      each (replayTo eventId application now) targets
  log .info Engine.replayLogger "Event replayed"
    [("event_id", .str eventId.write), ("application_id", .str application.write),
      ("attempts", .int attempts.length)]
  return attempts

theorem run_replay (eventId application : Uuid) (subscription : Option Uuid) (now : Int) :
    (replay eventId application subscription now).run =
      Engine.replay eventId application subscription now := by
  refine congrArg (· >>= _) (congrArg Engine.atomically (bind_congr fun found => ?_))
  cases found with
  | none => rfl
  | some event =>
    dsimp only
    rw [← run_replayTargets]
    exact bind_congr fun targets => run_each (run_replayTo eventId application now) targets

def readAttempt (row : AttemptRow) : Program Attempt :=
  ask (Engine.readAttempt row) (Engine.keeps_ofExcept _ _)

def loadClaim (a : Attempt) : Program Claim := do
  let event ← getEvent a.eventId none
  let subscription ← getSubscription a.subscriptionId none
  match event, subscription with
  | some event, some subscription => return ⟨a, event, subscription⟩
  | _, _ => raise (.missingRows a.attemptId)

theorem run_loadClaim (a : Attempt) : (loadClaim a).run = Engine.loadClaim a := by
  refine bind_congr fun event => bind_congr fun subscription => ?_
  cases event <;> cases subscription <;> rfl

/-- The claim of a row that was found, if one was. -/
def loadRow : Option AttemptRow → Program (Option Claim)
  | none => pure none
  | some row => do return some (← loadClaim (← readAttempt row))

def claimNext (c : Claimant) (now : Int) : Program (Option Claim) := block do
  loadRow (← write (.claim c now))

theorem run_claimNext (c : Claimant) (now : Int) :
    (claimNext c now).run = Engine.claimNext c now := by
  refine congrArg Engine.atomically ?_
  change (Statement.run (.claim c now) >>= fun row => (loadRow row).run) = _
  simp only [Statement.run, bind_assoc]
  refine bind_congr fun _ => bind_congr fun _ => bind_congr fun row => ?_
  cases row with
  | none => rfl
  | some row =>
    refine bind_congr fun a => ?_
    rw [← run_loadClaim]
    rfl

def findStale (before limit : Int) : Program (List Claim) := block do
  let rows ← ask (do
    Engine.touch .attempt
    Engine.checkInteger limit
    return (← Engine.tables).staleClaims before limit)
    ((Engine.keeps_touch _).bind fun _ => (Engine.keeps_checkInteger _).bind fun _ =>
      Engine.keeps_tables.bind fun _ => .pure _)
  each (fun row => do loadClaim (← readAttempt row)) rows

theorem run_findStale (before limit : Int) :
    (findStale before limit).run = Engine.findStale before limit := by
  refine congrArg Engine.atomically ?_
  change (_ >>= fun rows => (each (fun row => do loadClaim (← readAttempt row)) rows).run) = _
  simp only [run, bind_assoc, pure_bind]
  refine bind_congr fun _ => bind_congr fun _ => bind_congr fun t => run_each (fun row => ?_) _
  refine bind_congr fun a => ?_
  exact run_loadClaim a

def finalize (claimed : Attempt) (r : Response) (now : Int) (retryAt : Option Int) : Program Bool :=
  match claimed.pickedAt with
  | none => raise .notClaimed
  | some pickedAt => block do
    if ← write (.release claimed.attemptId pickedAt.micros claimed.workerName
        (Engine.outcomeOf r now retryAt) r.responseId) then
      write (.insertResponse r)
      return true
    else
      log .warning Engine.storeLogger "Claim lost before finalization"
        [("request_attempt_id", .str claimed.attemptId.write)]
      return false

theorem run_finalize (claimed : Attempt) (r : Response) (now : Int) (retryAt : Option Int) :
    (finalize claimed r now retryAt).run = Engine.finalize claimed r now retryAt := by
  unfold finalize Engine.finalize
  cases claimed.pickedAt with
  | none => rfl
  | some pickedAt =>
    refine congrArg Engine.atomically ?_
    refine (bind_assoc ..).trans ?_
    refine bind_congr fun _ => bind_congr fun held => ?_
    cases held <;> rfl

end Program

/-- What is asked of the store in one go: an operation of the engine, or the insertion of an attempt
or the mark of an event by itself. -/
inductive Action where
  | operation (o : Operation)
  | insertAttempt (a : Attempt) (key : String)
  | markDispatched (id : Uuid) (time : Int)

namespace Action

def run : Action → Engine Answer
  | operation o => o.run
  | insertAttempt a key => .flag <$> Engine.insertAttempt a key
  | markDispatched id time => .flag <$> Engine.markDispatched id time

def program : Action → Program Answer
  | operation (.storeEvent e) => do return .flag (← Program.insertEvent e)
  | operation (.ingest e now) => do return .attempts (← Program.ingest e now)
  | operation (.replay eventId application subscription now) => do
    return .attempts (← Program.replay eventId application subscription now)
  | operation (.claim c now) => do return .claims (← Program.claimNext c now).toList
  | operation (.findStale before limit) => do return .claims (← Program.findStale before limit)
  | operation (.finalize claimed r now retryAt) => do
    return .flag (← Program.finalize claimed r now retryAt)
  | operation (.saveSubscription s) => do
    Program.saveSubscription s
    return .done
  | operation (.setEnabled id enabled) => do return .flag (← Program.setEnabled id enabled)
  | insertAttempt a key => do return .flag (← Program.insertAttempt a key)
  | markDispatched id time => do return .flag (← Program.markDispatched id time)

theorem run_program (x : Action) : x.program.run = x.run := by
  have hmap : ∀ {α : Type} (f : α → Answer) {p : Program α} {body : Engine α}, p.run = body →
      (do return f (← p) : Program Answer).run = f <$> body := by
    rintro α f p body rfl
    exact (map_eq_pure_bind f p.run).symm
  cases x with
  | operation o =>
    cases o with
    | storeEvent e => exact hmap _ rfl
    | ingest e now => exact hmap _ (Program.run_ingest e now)
    | replay eventId application subscription now =>
      exact hmap _ (Program.run_replay eventId application subscription now)
    | claim c now => exact hmap _ (Program.run_claimNext c now)
    | findStale before limit => exact hmap _ (Program.run_findStale before limit)
    | finalize claimed r now retryAt => exact hmap _ (Program.run_finalize claimed r now retryAt)
    | saveSubscription s => exact hmap (fun _ => .done) rfl
    | setEnabled id enabled => exact hmap _ rfl
  | insertAttempt a key => exact hmap _ rfl
  | markDispatched id time => exact hmap _ rfl

end Action
end WebhookDelivery
