import WebhookDelivery.Proofs.References
import WebhookDelivery.Proofs.WorkerRuns
import WebhookDelivery.Store.Edit

/-!
# WebhookDelivery.Proofs.Requests

All that can be asked of the engine, with the raw changes of rows beside it.

* `Query`, `Request`: the questions about the store, and all operations of dispatchers, replays,
  workers and the store, as they run in any world.
* `Store.Leads`: a store follows from another by requests; `leads_runOnce` and `isAsked_run` say that
  what a worker and a pool of workers do is made of requests.
* `Store.Drifts`: so it is when rows are also changed from outside the engine.
* `Request.changes`, `Request.run_calls`: what a request does to the tables, and that all but two of
  them are made of calls.
-/

namespace WebhookDelivery

inductive Query where
  | event (id : Uuid) (application : Option Uuid)
  | undispatched (limit : Int)
  | subscription (id : Uuid) (application : Option Uuid)
  | subscriptions (application : Uuid) (enabledOnly : Bool)
  | attempt (id : Uuid) (application : Option Uuid)
  | attemptOfKey (key : String)
  | openAttempt (eventId subscriptionId : Uuid)
  | attempts (application : Uuid) (filter : AttemptFilter) (now limit offset : Int)
  | stats (application : Uuid) (now : Int)
  | response (id : Uuid) (application : Option Uuid)
  | responses (attemptId : Uuid)

namespace Query

open Engine in
def run : Query → Engine Unit
  | event id application => (fun _ => ()) <$> getEvent id application
  | undispatched limit => (fun _ => ()) <$> listUndispatched limit
  | subscription id application => (fun _ => ()) <$> getSubscription id application
  | subscriptions application enabledOnly =>
    (fun _ => ()) <$> listSubscriptions application enabledOnly
  | attempt id application => (fun _ => ()) <$> getAttempt id application
  | attemptOfKey key => (fun _ => ()) <$> getAttemptByKey key
  | openAttempt eventId subscriptionId =>
    (fun _ => ()) <$> findOpenAttempt eventId subscriptionId
  | attempts application filter now limit offset =>
    (fun _ => ()) <$> listAttempts application filter now limit offset
  | stats application now => (fun _ => ()) <$> attemptStats application now
  | response id application => (fun _ => ()) <$> getResponse id application
  | responses attemptId => (fun _ => ()) <$> listResponses attemptId

end Query

namespace Engine

variable {α β : Type}

theorem keeps_query (name : TableName) (query : Tables → α) :
    Keeps (atomically do touch name; return query (← tables)) :=
  .atomically ((keeps_touch name).bind fun _ => keeps_tables.bind fun _ => .pure _)

theorem keeps_getRow {ε : Type} {name : TableName} {query : Tables → Option α}
    {wrap : ε → OperationError} {read : α → Except ε β} :
    Keeps (do
      let row ← atomically do
        touch name
        return query (← tables)
      readRow (fun x => ofExcept wrap (read x)) row) := by
  refine (keeps_query name query).bind fun row => ?_
  cases row with
  | none => exact .pure none
  | some x => exact (keeps_ofExcept wrap (read x)).map some

theorem keeps_readRows {ε : Type} {body : Engine (List α)} {wrap : ε → OperationError}
    {read : α → Except ε β} (h : Keeps body) :
    Keeps (body >>= fun rows => rows.mapM fun x => ofExcept wrap (read x)) :=
  h.bind fun rows => .mapM (fun _ => keeps_ofExcept _ _) rows

end Engine

open Engine in
/-- A question leaves the store as it is. -/
theorem Query.keeps_run (q : Query) : q.run.Keeps := by
  cases q with
  | undispatched limit => exact .map _ (keeps_listUndispatched limit)
  | subscriptions application enabledOnly => exact .map _ (keeps_readRows (keeps_query _ _))
  | attempts application filter now limit offset =>
    refine .map _ (keeps_readRows (.atomically ?_))
    exact (keeps_touch _).bind fun _ => (keeps_checkInteger _).bind fun _ =>
      (keeps_checkInteger _).bind fun _ => keeps_tables.bind fun _ => .pure _
  | stats application now =>
    exact .map _ (.atomically ((keeps_touch _).bind fun _ => keeps_tables.bind fun _ => .pure _))
  | responses attemptId => exact .map _ (keeps_readRows (keeps_query _ _))
  | _ => exact .map _ keeps_getRow

/-! ## Requests -/

inductive Request where
  | operation (o : Operation)
  | query (q : Query)
  | markDispatched (id : Uuid) (time : Int)
  | dispatchPending (now limit : Int)
  | process (u : WorkerUnit) (claim : Claim)
  | reap (u : WorkerUnit) (now : Int)

namespace Request

def run : Request → Engine Unit
  | operation o => (fun _ => ()) <$> o.run
  | query q => q.run
  | markDispatched id time => (fun _ => ()) <$> Engine.markDispatched id time
  | dispatchPending now limit => (fun _ => ()) <$> Engine.dispatchPending now limit
  | process u claim => (fun _ => ()) <$> u.process claim
  | reap u now => (fun _ => ()) <$> u.reap now

/-- The request claims an attempt. -/
def isClaim : Request → Bool
  | operation o => o.isClaim
  | _ => false

end Request

namespace Engine

variable {α β : Type}

theorem store_map (f : α → β) (body : Engine α) (w : World) :
    ((f <$> body) w).2.store = (body w).2.store := by
  rw [map_apply]
  cases body w with
  | mk r v => cases r <;> rfl

theorem store_withFields (fields : LogFields) (body : Engine α) (w : World) :
    (withFields fields body w).2.store = (body { w with log := w.log.bind fields }).2.store := rfl

/-- What comes last and leaves the store alone does not matter to it. -/
theorem store_bind_of_keeps (body : Engine α) {f : α → Engine β} (hf : ∀ a, Keeps (f a))
    (w : World) : ((body >>= f) w).2.store = (body w).2.store := by
  rw [bind_apply]
  cases body w with
  | mk r v =>
    cases r with
    | error e => rfl
    | ok a => exact hf a v

end Engine

namespace Request

/-- A request that marks no event by itself is made of calls, of which only its own may claim. -/
theorem run_calls (q : Request) (w : World) :
    (∃ id time, q = .markDispatched id time) ∨
    ∃ calls, Run w.store calls (q.run w).2.store ∧
      ∀ x ∈ calls, q.isClaim = false → x.operation.isClaim = false := by
  cases q with
  | operation o =>
    right
    refine ⟨[⟨o, w⟩], ?_, by simp [isClaim]⟩
    rw [run, Engine.store_map]
    exact .cons (x := ⟨o, w⟩) (.nil _)
  | query q =>
    right
    refine ⟨[], ?_, by simp⟩
    rw [run, q.keeps_run w]
    exact .nil _
  | markDispatched id time => exact .inl ⟨id, time, rfl⟩
  | dispatchPending now limit =>
    right
    obtain ⟨⟨calls, hrun, hp, -⟩, -⟩ :=
      Engine.performs_dispatchPending (fun _ => True) now limit w
    refine ⟨calls, ?_, fun x hx _ => ?_⟩
    · rw [run, Engine.store_map]
      exact hrun
    · obtain ⟨e, -, -, he⟩ := hp x hx
      rw [he]
      rfl
  | process u claim =>
    right
    have hprocess : Engine.Performs Operation.IsRelease (fun _ => True) (u.process claim)
        fun _ => True := u.performs_process trivial
    obtain ⟨⟨calls, hrun, hp, -⟩, -⟩ := hprocess w
    refine ⟨calls, ?_, fun x hx _ => (hp x hx).2⟩
    rw [run, Engine.store_map]
    exact hrun
  | reap u now =>
    right
    obtain ⟨⟨calls, hrun, hp, -⟩, -⟩ := u.performs_reap (fun _ => True) now w
    refine ⟨calls, ?_, fun x hx _ => (hp x hx).2⟩
    rw [run, Engine.store_map]
    exact hrun

/-- To mark an event is an edit, if it succeeds. -/
theorem registers_markDispatched {w : World} (h : w.store.IsIdle) (id : Uuid) (time : Int) :
    w.store.tables.Registers ((markDispatched id time).run w).2.store.tables := by
  rw [run, Engine.store_map]
  cases hr : (Engine.markDispatched id time w).1 with
  | error e =>
    have ht := Engine.Reverts.atomically (do
      Engine.touch .event
      Engine.change (·.markDispatched id time)) w h.inTransaction e hr
    change (Engine.markDispatched id time w).2.store.tables = w.store.tables at ht
    rw [ht]
    exact .refl _
  | ok b =>
    obtain ⟨ht, -⟩ := (Engine.meets_markDispatched id time w).2 b hr
    have hreg := Tables.registers_markDispatched w.store.tables id time
    change (b, (Engine.markDispatched id time w).2.store.tables) = _ at ht
    rw [← (congrArg Prod.snd ht : _ = (w.store.tables.markDispatched id time).2)] at hreg
    exact hreg

theorem isIdle (q : Request) {w : World} (h : w.store.IsIdle) : (q.run w).2.store.IsIdle := by
  rcases q.run_calls w with ⟨id, time, rfl⟩ | ⟨calls, hrun, -⟩
  · rw [run, Engine.store_map]
    have hc := (Engine.meets_markDispatched id time w).1
    exact ⟨hc.isOpen.trans h.isOpen, hc.inTransaction.trans h.inTransaction⟩
  · exact hrun.isIdle h

end Request

theorem Tables.Change.mono {p q : Ending → Prop} (hpq : ∀ e, p e → q e) {t t' : Tables}
    (h : Change p t t') : Change q t t' := by
  cases h with
  | edit h => exact .edit (h.mono hpq)
  | offer r fresh places => exact .offer r fresh places

theorem Run.changes {s t : Store} {calls : List Call} (h : Run s calls t) (hs : s.IsIdle) :
    Tables.Changes (fun _ => True) s.tables t.tables := by
  induction h with
  | nil => exact .refl
  | @cons x rest _ _ ih =>
    have hx : Tables.Changes (fun _ => True) x.before.tables x.after.tables :=
      (Call.changes hs).lift id fun _ _ hc => hc.mono fun _ _ => trivial
    exact hx.trans (ih (Call.isIdle_after hs))

theorem Request.changes (q : Request) {w : World} (h : w.store.IsIdle) :
    Tables.Changes (fun _ => True) w.store.tables (q.run w).2.store.tables := by
  rcases q.run_calls w with ⟨id, time, rfl⟩ | ⟨calls, hrun, -⟩
  · exact .single (.edit (.register (registers_markDispatched h id time)))
  · exact hrun.changes h

theorem Request.intact (q : Request) {w : World} (hi : w.store.IsIdle)
    (ht : w.store.tables.Intact) : (q.run w).2.store.tables.Intact :=
  (q.changes hi).invariant ht fun _ _ hc => hc.intact

/-! ## Sequences of requests -/

namespace Store

/-- A request that is run in some world leads from a store to another. -/
def Asks (s t : Store) : Prop := ∃ (q : Request) (w : World), w.store = s ∧ (q.run w).2.store = t

abbrev Leads : Store → Store → Prop := Relation.ReflTransGen Asks

/-- A row is changed from outside the engine. -/
def Tampers (s t : Store) : Prop := ∃ w : World, w.store = s ∧
  ((∃ id edit, (Engine.editAttempt id edit w).2.store = t) ∨
    ∃ id, (Engine.editResponse id w).2.store = t)

abbrev Drifts : Store → Store → Prop := Relation.ReflTransGen fun s t => s.Asks t ∨ s.Tampers t

theorem leads_request (q : Request) (w : World) : w.store.Leads (q.run w).2.store :=
  .single ⟨q, w, rfl, rfl⟩

theorem leads_runAll (w : World) (operations : List Operation) :
    w.store.Leads (w.runAll operations).store := by
  induction operations generalizing w with
  | nil => exact .refl
  | cons o rest ih =>
    have hq := leads_request (.operation o) w
    rw [Request.run, Engine.store_map] at hq
    exact hq.trans (ih (o.run w).2)

/-- What all requests keep holds wherever they lead. -/
theorem Leads.invariant {I : Store → Prop} {s t : Store} (h : s.Leads t) (hs : I s)
    (hq : ∀ (q : Request) (w : World), I w.store → I (q.run w).2.store) : I t := by
  induction h with
  | refl => exact hs
  | tail _ hstep ih =>
    obtain ⟨q, w, rfl, rfl⟩ := hstep
    exact hq q w ih

end Store

/-! ## Workers -/

namespace Engine

variable {α β : Type} {body : Engine α}

/-- What the body does to the store is made of requests. -/
def IsAsked (body : Engine α) : Prop := ∀ w : World, w.store.Leads (body w).2.store

theorem Keeps.isAsked (h : Keeps body) : IsAsked body := by
  intro w
  rw [h w]

theorem IsAsked.bind {f : α → Engine β} (h : IsAsked body) (hf : ∀ a, IsAsked (f a)) :
    IsAsked (body >>= f) := by
  intro w
  have hw := h w
  rw [bind_apply]
  cases hr : body w with
  | mk r v =>
    rw [hr] at hw
    cases r with
    | error e => exact hw
    | ok a => exact hw.trans (hf a v)

theorem isAsked_get {f : World → Engine α} (hf : ∀ w : World, w.store.Leads (f w w).2.store) :
    IsAsked (get >>= f) := hf

end Engine

namespace WorkerUnit

open Engine

theorem leads_reapIfDue (u : WorkerUnit) (now : Int) (w : World) :
    w.store.Leads (u.reapIfDue now w).2.store := by
  unfold reapIfDue
  split
  · rw [store_bind_of_keeps _ fun _ => (keeps_ofExcept _ _).bind fun _ => .pure _,
      ← store_map (fun _ => ()) (u.reap now)]
    exact Store.leads_request (.reap u now) w
  · exact .refl

/-- What follows the processing of a claim leaves the store alone. -/
theorem store_processSafely (u : WorkerUnit) (claim : Claim) (w : World) :
    (u.processSafely claim w).2.store =
      (u.process claim { w with log := w.log.bind (Log.attemptFields claim.attempt) }).2.store := by
  rw [processSafely, store_withFields]
  refine store_bind_of_keeps (attempt? (u.process claim)) (fun result => ?_) _
  cases result with
  | ok _ => exact .pure ()
  | error e =>
    dsimp only
    split
    · exact .throw e
    · exact fun _ => rfl

theorem leads_processSafely (u : WorkerUnit) (claim : Claim) (w : World) :
    w.store.Leads (u.processSafely claim w).2.store := by
  rw [store_processSafely, ← store_map (fun _ => ())]
  exact Store.leads_request (.process u claim)
    { w with log := w.log.bind (Log.attemptFields claim.attempt) }

theorem leads_claimNext (c : Claimant) (now : Int) (w : World) :
    w.store.Leads (claimNext c now w).2.store := by
  have hq := Store.leads_request (.operation (.claim c now)) w
  rw [Request.run, store_map, Operation.run, store_map] at hq
  exact hq

theorem leads_claimAndProcess (u : WorkerUnit) (now : Int) (w : World) :
    w.store.Leads (u.claimAndProcess now w).2.store := by
  have hc := leads_claimNext u.claimant now w
  unfold claimAndProcess
  rw [bind_apply]
  cases hr : claimNext u.claimant now w with
  | mk result v =>
    rw [hr] at hc
    cases result with
    | error e => exact hc
    | ok found =>
      cases found with
      | none => exact hc
      | some claim =>
        refine hc.trans ?_
        dsimp only
        rw [store_bind_of_keeps _ fun _ => .pure true]
        exact u.leads_processSafely claim v

/-- A turn of a unit is made of requests. -/
theorem leads_runOnce (u : WorkerUnit) (w : World) : w.store.Leads (u.runOnce w).2.2.store := by
  have hr := u.leads_reapIfDue w.clock w
  unfold runOnce
  dsimp only
  cases h : u.reapIfDue w.clock w with
  | mk result v =>
    rw [h] at hr
    cases result with
    | error e => exact hr
    | ok u' => exact hr.trans (u'.leads_claimAndProcess w.clock v)

theorem leads_takeTurn (u : WorkerUnit) (w : World) : w.store.Leads (u.takeTurn w).2.2.store :=
  u.leads_runOnce { w with log := w.log.bind u.fields }

end WorkerUnit

namespace Pool

open Engine

theorem leads_takeTurns (units : List WorkerUnit) (w : World) :
    w.store.Leads (takeTurns units w).2.2.store := by
  induction units generalizing w with
  | nil => exact .refl
  | cons u rest ih =>
    have hu := u.leads_takeTurn w
    unfold takeTurns
    rcases h : u.takeTurn w with ⟨result, u', v⟩
    rw [h] at hu
    cases result with
    | error e => exact hu
    | ok processed => exact hu.trans (ih v)

theorem leads_takeRounds (stop : World → Bool) (rounds : Nat) (units : List WorkerUnit) (w : World) :
    w.store.Leads (takeRounds stop rounds units w).2.store := by
  induction rounds generalizing units w with
  | zero => exact .refl
  | succ rounds ih =>
    have ht := leads_takeTurns units w
    unfold takeRounds
    split
    · exact .refl
    · rcases h : takeTurns units w with ⟨result, units', v⟩
      rw [h] at ht
      cases result with
      | error e => exact ht
      | ok processed =>
        cases processed with
        | false => exact ht
        | true => exact ht.trans (ih units' v)

/-- What a pool does until it is told to stop is made of requests. -/
theorem isAsked_run (settings : WorkerSettings) (policy : RetrySettings) (stopAfter : Nat) :
    IsAsked (run settings policy stopAfter) := by
  have hannounce : Keeps (Client.announce settings) := by
    unfold Client.announce
    split
    · exact keeps_log _ _ _ _
    · exact .pure ()
  have hunits : ∀ f : WorkerUnit → Engine Unit, (∀ u, Keeps (f u)) →
      ∀ units : List WorkerUnit, Keeps (units.forM f) := by
    intro f hf units
    induction units with
    | nil => exact .pure ()
    | cons u rest ih => exact (hf u).bind fun _ => ih
  have hstarted : ∀ u : WorkerUnit, Keeps u.logStarted := fun _ _ => rfl
  have hstopped : ∀ u : WorkerUnit, Keeps u.logStopped := fun _ _ => rfl
  have hlog : Keeps (log .info WorkerUnit.logger "Worker pool stopped"
      [("worker_name", .str settings.name)]) := keeps_log _ _ _ _
  unfold run
  refine hannounce.isAsked.bind fun _ => (keeps_log _ _ _ _).isAsked.bind fun _ =>
    isAsked_get fun w => ?_
  dsimp only
  split
  · have hquiet := (hunits (fun u => do u.logStarted; u.logStopped)
      (fun u => (hstarted u).bind fun _ => hstopped u) (units settings policy)).bind fun _ => hlog
    exact hquiet.isAsked w
  · refine ((hunits _ hstarted _).isAsked.bind fun _ => isAsked_get fun v => ?_) w
    have hr := leads_takeRounds (fun w => stopAfter ≤ w.network.requests.length)
      (stopAfter + turnsPerAttempt * (w.store.tables.attempts.length + 1)) (units settings policy) v
    rcases h : takeRounds (fun w => stopAfter ≤ w.network.requests.length)
      (stopAfter + turnsPerAttempt * (w.store.tables.attempts.length + 1)) (units settings policy) v
      with ⟨result, v'⟩
    rw [h] at hr
    refine hr.trans ?_
    cases result with
    | ok _ => exact ((hunits _ hstopped _).bind fun _ => hlog).isAsked v'
    | error e =>
      have hthrow : Keeps (throw e : Engine PUnit) := .throw e
      exact (hlog.bind fun _ => hthrow.bind fun _ => hlog).isAsked v'

end Pool
end WebhookDelivery
