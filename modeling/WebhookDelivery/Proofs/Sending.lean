import WebhookDelivery.Proofs.DeliveryHeaders
import WebhookDelivery.Proofs.Executions
import WebhookDelivery.Proofs.FirstDispatch
import WebhookDelivery.Proofs.Requests

/-!
# WebhookDelivery.Proofs.Sending

Which requests the engine sends.

* `Sends p body`: whatever the world, `body` sends requests of `p` only.
* `SentRequest.IsDelivery`: a request delivers an event to the target of a subscription.
* `sends_process`: the execution of a claim sends deliveries of the event and to the subscription
  that were loaded with it; `requests_process` says when it sends one.
* `sends_runOnce`: a turn of a unit sends nothing else, for the claim that is handed out in it.
-/

namespace WebhookDelivery
namespace Engine

variable {α β : Type}

/-- All that the body sends are requests of `p`. -/
def Sends (p : SentRequest → Prop) (body : Engine α) : Prop :=
  ∀ w, ∃ sent, (body w).2.network.requests = w.network.requests ++ sent ∧ ∀ r ∈ sent, p r

namespace Sends

variable {p q : SentRequest → Prop} {body : Engine α}

theorem mono (h : Sends p body) (hp : ∀ r, p r → q r) : Sends q body := by
  intro w
  obtain ⟨sent, hs, hall⟩ := h w
  exact ⟨sent, hs, fun r hr => hp r (hall r hr)⟩

theorem quiet (h : ∀ w, (body w).2.network.requests = w.network.requests) : Sends p body := by
  intro w
  exact ⟨[], by simp [h w], by simp⟩

/-- What sends requests of no kind sends none. -/
theorem requests_eq (h : Sends (fun _ => False) body) (w : World) :
    (body w).2.network.requests = w.network.requests := by
  obtain ⟨sent, hs, hall⟩ := h w
  have hnil : sent = [] := List.eq_nil_iff_forall_not_mem.2 hall
  rw [hs, hnil, List.append_nil]

/-- What follows the body adds nothing to what it sends. -/
theorem requests_bind {f : α → Engine β} (hf : ∀ a, Sends (fun _ => False) (f a)) (w : World) :
    ((body >>= f) w).2.network.requests = (body w).2.network.requests := by
  rw [bind_apply]
  cases hr : body w with
  | mk result v =>
    cases result with
    | error e => rfl
    | ok a => exact (hf a).requests_eq v

theorem pure (a : α) : Sends p (pure a) := quiet fun _ => rfl

theorem throw (e : OperationError) : Sends p (throw e : Engine α) := quiet fun _ => rfl

theorem bind {f : α → Engine β} (h : Sends p body) (hf : ∀ a, Sends p (f a)) :
    Sends p (body >>= f) := by
  intro w
  obtain ⟨sent, hs, hall⟩ := h w
  rw [bind_apply]
  cases hr : body w with
  | mk result v =>
    rw [hr] at hs
    cases result with
    | error e => exact ⟨sent, hs, hall⟩
    | ok a =>
      obtain ⟨more, hs', hall'⟩ := hf a v
      refine ⟨sent ++ more, ?_, fun r hr => ?_⟩
      · rw [← List.append_assoc, ← hs]
        exact hs'
      · rcases List.mem_append.1 hr with hr | hr
        · exact hall r hr
        · exact hall' r hr

theorem map (f : α → β) (h : Sends p body) : Sends p (f <$> body) := by
  rw [map_eq_pure_bind]
  exact h.bind fun a => .pure (f a)

theorem mapM {f : α → Engine β} (hf : ∀ a, Sends p (f a)) (rows : List α) :
    Sends p (rows.mapM f) := by
  induction rows with
  | nil => exact .pure []
  | cons r rest ih =>
    rw [List.mapM_cons]
    exact (hf r).bind fun _ => ih.bind fun _ => .pure _

/-- A transaction sends what its statements do, also where it is rolled back. -/
theorem atomically (h : Sends p body) : Sends p (atomically body) := by
  intro w
  unfold Engine.atomically
  split
  · exact ⟨[], by simp, by simp⟩
  · split
    · exact h w
    · obtain ⟨sent, hs, hall⟩ := h { w with store := { w.store with inTransaction := true } }
      refine ⟨sent, ?_, hall⟩
      cases hr : body { w with store := { w.store with inTransaction := true } } with
      | mk result v =>
        rw [hr] at hs
        cases result with
        | error e => exact hs
        | ok a =>
          dsimp only [settle]
          split
          · exact hs
          · exact hs

theorem withFields (fields : LogFields) (h : Sends p body) : Sends p (withFields fields body) :=
  fun w => h { w with log := w.log.bind fields }

theorem attempt? (h : Sends p body) : Sends p (attempt? body) := h

theorem ofExcept {ε : Type} (wrap : ε → OperationError) (r : Except ε α) :
    Sends p (ofExcept wrap r) := by
  cases r with
  | ok a => exact .pure a
  | error e => exact .throw (wrap e)

end Sends

theorem ofExcept_bind {ε : Type} (wrap : ε → OperationError) (r : Except ε α)
    (f : α → Except ε β) :
    ofExcept wrap (r >>= f) = ofExcept wrap r >>= fun a => ofExcept wrap (f a) := by
  cases r <;> rfl

/-! ## Statements and records -/

variable {p : SentRequest → Prop}

theorem sends_log (level : LogLevel) (logger event : String) (fields : LogFields) :
    Sends p (log level logger event fields) := .quiet fun _ => rfl

theorem sends_tables : Sends p tables := .quiet fun _ => rfl

theorem sends_change (f : Tables → α × Tables) : Sends p (change f) := .quiet fun _ => rfl

theorem sends_touch (name : TableName) : Sends p (touch name) := by
  refine .quiet fun w => ?_
  rw [touch_eq]
  split <;> rfl

theorem sends_checkInteger (n : Int) : Sends p (checkInteger n) := by
  unfold checkInteger
  split
  · exact .pure ()
  · exact .throw _

theorem sends_statement (f : Tables → Except StatementError (α × Tables)) :
    Sends p (statement f) := by
  refine .quiet fun w => ?_
  rw [statement_apply]
  cases f w.store.tables <;> rfl

theorem sends_query (name : TableName) (query : Tables → α) :
    Sends p (atomically (do touch name; return query (← tables))) :=
  .atomically ((sends_touch name).bind fun _ => sends_tables.bind fun t => .pure (query t))

theorem sends_readRow {read : α → Engine β} (h : ∀ a, Sends p (read a)) (row : Option α) :
    Sends p (readRow read row) := by
  cases row with
  | none => exact .pure none
  | some a => exact (h a).map some

theorem sends_loadClaim (a : Attempt) : Sends p (loadClaim a) := by
  have hevent : Sends p (getEvent a.eventId none) :=
    (sends_query _ _).bind fun row => sends_readRow (fun _ => .ofExcept _ _) row
  have hsubscription : Sends p (getSubscription a.subscriptionId none) :=
    (sends_query _ _).bind fun row => sends_readRow (fun _ => .ofExcept _ _) row
  refine hevent.bind fun event => hsubscription.bind fun subscription => ?_
  cases event with
  | none => exact .throw _
  | some e =>
    cases subscription with
    | none => exact .throw _
    | some s => exact .pure _

theorem sends_claimNext (c : Claimant) (now : Int) : Sends p (claimNext c now) := by
  refine .atomically ((sends_touch _).bind fun _ => (sends_touch _).bind fun _ =>
    (sends_change _).bind fun row => ?_)
  cases row with
  | none => exact .pure none
  | some r =>
    have hread : Sends p (readAttempt r) := .ofExcept _ _
    exact hread.bind fun a => (sends_loadClaim a).bind fun claim => .pure (some claim)

theorem sends_findStale (before limit : Int) : Sends p (findStale before limit) :=
  .atomically ((sends_touch _).bind fun _ => (sends_checkInteger _).bind fun _ =>
    sends_tables.bind fun _ => .mapM (fun _ => Sends.bind (.ofExcept _ _) sends_loadClaim) _)

theorem sends_insertResponse (r : Response) : Sends p (insertResponse r) := by
  refine (sends_touch _).bind fun _ => ?_
  have hrest : Sends p (do
      checkInteger r.elapsedMs
      statement fun t => (t.insertResponse r).map fun t => ((), t)) :=
    (sends_checkInteger _).bind fun _ => sends_statement _
  cases r.httpCode with
  | none => exact hrest
  | some code => exact (sends_checkInteger code).bind fun _ => hrest

theorem sends_finalize (claimed : Attempt) (r : Response) (now : Int) (retryAt : Option Int) :
    Sends p (finalize claimed r now retryAt) := by
  unfold finalize
  split
  · exact .throw _
  · refine .atomically ((sends_touch _).bind fun _ => (sends_change _).bind fun held => ?_)
    cases held with
    | true => exact (sends_insertResponse r).bind fun _ => .pure true
    | false => exact (sends_log _ _ _ _).bind fun _ => .pure false

end Engine

/-! ## Executions -/

/-- A request delivers an event to the target of a subscription, signed at a time. -/
structure SentRequest.IsDelivery (r : SentRequest) (settings : WorkerSettings) (event : Event)
    (subscription : Subscription) (timestamp : Int) : Prop where
  method : r.method = subscription.target.method
  url : r.url = subscription.target.url
  body : r.body = event.payload
  headers : Client.outboundHeaders settings event subscription timestamp = .ok r.headers

namespace Client

open Engine

theorem sends_respond {p : SentRequest → Prop} (start : Int) (a : Attempt)
    (error : Option FailureKind) (received : Option Received) :
    Sends p (respond start a error received) := .quiet fun _ => rfl

theorem sends_exchange {p : SentRequest → Prop} (settings : WorkerSettings) (method url : String)
    (headers : HeaderBlock) (body : Bytes) (hp : ∀ chunks, p ⟨method, url, headers, body, chunks⟩) :
    Sends p (exchange settings method url headers body) := by
  intro w
  exact ⟨[_], rfl, by simp [hp]⟩

/-- What a client does with a reply. -/
def conclude (fields : LogFields) (start : Int) (a : Attempt) (x : Reply × Exchange) :
    Engine Response :=
  match x.2.result with
  | .timedOut | .broken .timeout => do
    log .info logger "Delivery timed out" fields
    respond start a (some .timeout) none
  | .broken (.invalidUrl m) | .broken (.unsupportedProtocol m) => do
    log .warning logger "Invalid target" (fields ++ [("reason", .str m)])
    respond start a (some .invalidTarget) none
  | .broken (.connection m) => do
    log .info logger "Delivery connection failed" (fields ++ [("error", .str m)])
    respond start a (some .connection) none
  | .broken (.crash m) => throw (.crash m)
  | .complete body => do
    let success := isSuccess x.1.status
    log .info logger (if success then "Webhook delivered" else "Webhook rejected")
      (fields ++ [("http_code", .int x.1.status)])
    respond start a (if success then none else some .http) (some (received x.1 body))

theorem sends_conclude {p : SentRequest → Prop} (fields : LogFields) (start : Int) (a : Attempt)
    (x : Reply × Exchange) : Sends p (conclude fields start a x) := by
  unfold conclude
  split
  all_goals first
    | exact .throw _
    | exact (sends_log _ _ _ _).bind fun _ => sends_respond _ _ _ _

theorem deliver_eq (settings : WorkerSettings) (fields : LogFields) (start : Int) (a : Attempt)
    (e : Event) (s : Subscription) (now : Int) :
    deliver settings fields start a e s now =
      (ofExcept .header (outboundHeaders settings e s (ClockTime.unixSeconds now)) >>=
        fun headers => exchange settings s.target.method s.target.url headers e.payload >>=
          conclude fields start a) := by
  rw [outboundHeaders, Engine.ofExcept_bind, Engine.ofExcept_bind, bind_assoc, bind_assoc]
  rfl

theorem sends_deliver (settings : WorkerSettings) (fields : LogFields) (start : Int) (a : Attempt)
    (e : Event) (s : Subscription) (now : Int) :
    Sends (·.IsDelivery settings e s (ClockTime.unixSeconds now))
      (deliver settings fields start a e s now) := by
  rw [deliver_eq]
  cases hheaders : outboundHeaders settings e s (ClockTime.unixSeconds now) with
  | error error => exact .quiet fun _ => rfl
  | ok headers =>
    exact (sends_exchange settings s.target.method s.target.url headers e.payload
      fun chunks => ⟨rfl, rfl, rfl, hheaders⟩).bind fun x => sends_conclude _ _ _ x

theorem requests_deliver {settings : WorkerSettings} {e : Event} {s : Subscription} {now : Int}
    {headers : HeaderBlock}
    (h : outboundHeaders settings e s (ClockTime.unixSeconds now) = .ok headers)
    (fields : LogFields) (start : Int) (a : Attempt) (w : World) :
    ∃ r, (deliver settings fields start a e s now w).2.network.requests =
      w.network.requests ++ [r] := by
  have hsend : ((exchange settings s.target.method s.target.url headers e.payload >>=
      conclude fields start a) w).2.network.requests =
        (exchange settings s.target.method s.target.url headers e.payload w).2.network.requests :=
    Sends.requests_bind (sends_conclude fields start a) w
  rw [deliver_eq, h]
  exact ⟨_, hsend⟩

theorem sends_execute (settings : WorkerSettings) (a : Attempt) (e : Event) (s : Subscription)
    (now : Int) : Sends (·.IsDelivery settings e s (ClockTime.unixSeconds now))
      (execute settings a e s now) := by
  have hget : ∀ {p}, Sends p (get : Engine World) := .quiet fun _ => rfl
  have hcheck : ∀ {p}, Sends p (checkTarget settings s.target.url) := .quiet fun _ => rfl
  refine hget.bind fun w => hcheck.bind fun check => ?_
  cases check with
  | allowed => exact sends_deliver _ _ _ _ _ _ _
  | refused why => exact (sends_log _ _ _ _).bind fun _ => sends_respond _ _ _ _
  | unresolved err => exact (sends_log _ _ _ _).bind fun _ => sends_respond _ _ _ _
  | unreadableHost e => exact .throw _
  | unreadableAddress address => exact .throw _

/-- A target that may be called is sent one request. -/
theorem requests_execute {settings : WorkerSettings} {e : Event} {s : Subscription} {now : Int}
    {headers : HeaderBlock}
    (h : outboundHeaders settings e s (ClockTime.unixSeconds now) = .ok headers) {w : World}
    (hallowed : (w.network.checkTarget (!settings.disableTargetCheck)
      s.target.url).1 = .allowed) (a : Attempt) :
    ∃ r, (execute settings a e s now w).2.network.requests = w.network.requests ++ [r] := by
  unfold execute
  rw [bind_apply]
  change ∃ r, ((checkTarget settings s.target.url >>= _) w).2.network.requests = _
  rw [bind_apply]
  have hcheck : (checkTarget settings s.target.url w).1 = .ok .allowed :=
    congrArg Except.ok hallowed
  have hquiet : (checkTarget settings s.target.url w).2.network.requests = w.network.requests := rfl
  cases hr : checkTarget settings s.target.url w with
  | mk result v =>
    rw [hr] at hcheck hquiet
    cases hcheck
    rw [← hquiet]
    exact requests_deliver h _ _ _ v

end Client

/-! ## Workers -/

namespace WorkerUnit

open Engine

variable {p : SentRequest → Prop}

theorem sends_logDecision (r : Response) (decision : Option RetryDecision) :
    Sends p (logDecision r decision) := by
  unfold logDecision
  split <;> exact sends_log _ _ _ _

theorem sends_finalize (u : WorkerUnit) (claim : Claim) (r : Response) (now : Int) :
    Sends p (u.finalize claim r now) := by
  have hdecide : Sends p (u.decide claim r now) := by
    refine .quiet fun w => ?_
    cases hf : r.failure? with
    | none =>
      unfold decide
      rw [hf]
      rfl
    | some failure => rw [decide_apply hf rfl]
  rw [finalize_eq]
  refine hdecide.bind fun decision => (Engine.sends_finalize _ _ _ _).bind fun held => ?_
  cases held with
  | true => exact (sends_logDecision r decision).bind fun _ => .pure true
  | false => exact .pure false

/-- The execution of a claim sends deliveries of what was loaded with it. -/
theorem sends_process (u : WorkerUnit) (claim : Claim) :
    Sends (fun r => ∃ now, r.IsDelivery u.settings claim.event claim.subscription
      (ClockTime.unixSeconds now)) (u.process claim) := by
  have hclock : ∀ {p}, Sends p clock := .quiet fun _ => rfl
  refine hclock.bind fun now => Sends.bind ?_ fun r => hclock.bind fun later =>
    u.sends_finalize claim r later
  exact (Client.sends_execute _ _ _ _ _).mono fun r hr => ⟨now, hr⟩

/-- The execution of a claim sends one request if the target may be called. -/
theorem requests_process (u : WorkerUnit) {claim : Claim} {w : World} {headers : HeaderBlock}
    (h : Client.outboundHeaders u.settings claim.event claim.subscription
      (ClockTime.unixSeconds w.clock) = .ok headers)
    (hallowed : (w.network.checkTarget (!u.settings.disableTargetCheck)
      claim.subscription.target.url).1 = .allowed) :
    ∃ r, (u.process claim w).2.network.requests = w.network.requests ++ [r] := by
  obtain ⟨r, hr⟩ := Client.requests_execute h hallowed claim.attempt
  refine ⟨r, ?_⟩
  rw [← hr]
  have hclock : ∀ {p}, Sends p clock := .quiet fun _ => rfl
  exact Sends.requests_bind (fun r => hclock.bind fun later => u.sends_finalize claim r later) w

theorem sends_processSafely (u : WorkerUnit) (claim : Claim) :
    Sends (fun r => ∃ now, r.IsDelivery u.settings claim.event claim.subscription
      (ClockTime.unixSeconds now)) (u.processSafely claim) := by
  refine .withFields _ ((u.sends_process claim).attempt?.bind fun result => ?_)
  cases result with
  | ok _ => exact .pure ()
  | error e =>
    dsimp only
    split
    · exact .throw _
    · exact .quiet fun _ => rfl

theorem sends_reapAll (u : WorkerUnit) (now : Int) (claims : List Claim) :
    Sends p (u.reapAll now claims) := by
  induction claims with
  | nil => exact .pure 0
  | cons claim rest ih =>
    have hresponse : Sends p (abandonedResponse claim.attempt now) := .quiet fun _ => rfl
    refine hresponse.bind fun r => Sends.bind
      (.withFields _ ((u.sends_finalize claim r now).bind fun reaped => ?_)) fun _ =>
        ih.bind fun _ => .pure _
    cases reaped with
    | false => exact .pure false
    | true => exact (sends_log _ _ _ _).bind fun _ => .pure true

theorem sends_reapIfDue (u : WorkerUnit) (now : Int) : Sends p (u.reapIfDue now) := by
  have hreap : Sends p (u.reap now) := Sends.bind (.ofExcept _ _) fun _ =>
    Sends.bind (.ofExcept _ _) fun _ => (sends_findStale _ _).bind (u.sends_reapAll now)
  unfold reapIfDue
  split
  · exact hreap.bind fun _ => Sends.bind (.ofExcept _ _) fun _ => .pure _
  · exact .pure u

/-- What is sent for a claim that is handed out is a delivery of what was loaded with it. -/
theorem sends_claimAndProcess (u : WorkerUnit) (now : Int) (w : World) :
    ∃ sent, (u.claimAndProcess now w).2.network.requests = w.network.requests ++ sent ∧
      ∀ r ∈ sent, ∃ claim, (⟨.claim u.claimant now, w⟩ : Call).Claims claim ∧
        ∃ time, r.IsDelivery u.settings claim.event claim.subscription
          (ClockTime.unixSeconds time) := by
  have hclaim := (sends_claimNext u.claimant now).requests_eq w
  unfold claimAndProcess
  rw [bind_apply]
  cases hr : claimNext u.claimant now w with
  | mk result v =>
    rw [hr] at hclaim
    cases result with
    | error e => exact ⟨[], by simpa using hclaim, by simp⟩
    | ok found =>
      cases found with
      | none => exact ⟨[], by rw [List.append_nil]; exact hclaim, by simp⟩
      | some claim =>
        have hclaims : (⟨.claim u.claimant now, w⟩ : Call).Claims claim := by
          refine ⟨u.claimant, now, rfl, ?_⟩
          rw [Call.answer, Operation.run, map_apply, hr]
          rfl
        obtain ⟨sent, hs, hall⟩ :=
          ((u.sends_processSafely claim).bind fun _ => Sends.pure true) v
        exact ⟨sent, hclaim ▸ hs, fun r hr => ⟨claim, hclaims, hall r hr⟩⟩

end WorkerUnit

/-! ## Turns -/

namespace Engine

variable {α β : Type} {body : Engine α}

/-- If the body succeeds, the events are those that were stored before. -/
def KeepsEvents (body : Engine α) : Prop :=
  ∀ w a, (body w).1 = .ok a → (body w).2.store.tables.events = w.store.tables.events

theorem Keeps.keepsEvents (h : Keeps body) : KeepsEvents body := by
  intro w a _
  rw [h w]

theorem KeepsEvents.bind {f : α → Engine β} (h : KeepsEvents body) (hf : ∀ a, KeepsEvents (f a)) :
    KeepsEvents (body >>= f) := by
  intro w b hb
  rw [bind_apply] at hb ⊢
  cases hr : body w with
  | mk result v =>
    have hv := h w
    rw [hr] at hb hv
    cases result with
    | error e => cases hb
    | ok a => exact (hf a v b hb).trans (hv a rfl)

/-- An operation that submits no event keeps those that are stored. -/
theorem keepsEvents_operation {o : Operation} (ho : o.submitted = none) {answer : α → Answer}
    (h : o.run = answer <$> body) : KeepsEvents body := by
  intro w a ha
  have hrun := (Operation.meets_events ho w).2
  rw [h, map_apply] at hrun
  cases hr : body w with
  | mk result v =>
    rw [hr] at ha hrun
    cases ha
    exact hrun (answer a) rfl

end Engine

namespace WorkerUnit

open Engine

theorem keepsEvents_reapAll (u : WorkerUnit) (now : Int) (claims : List Claim) :
    KeepsEvents (u.reapAll now claims) := by
  induction claims with
  | nil => exact (Keeps.pure 0).keepsEvents
  | cons claim rest ih =>
    have hresponse : Keeps (abandonedResponse claim.attempt now) := fun _ => rfl
    have hfinalize : ∀ r, KeepsEvents (u.finalize claim r now) := by
      intro r
      rw [finalize_eq]
      exact (u.keeps_decide claim r now).keepsEvents.bind fun decision =>
        (keepsEvents_operation (o := .finalize claim.attempt r now (RetryDecision.time? decision))
          rfl rfl).bind fun held => (keeps_report r decision held).keepsEvents
    refine hresponse.keepsEvents.bind fun r => KeepsEvents.bind (fun w => ?_) fun _ =>
      ih.bind fun _ => (Keeps.pure _).keepsEvents
    refine ((hfinalize r).bind fun reaped => ?_) { w with log := w.log.bind _ }
    cases reaped with
    | false => exact (Keeps.pure false).keepsEvents
    | true => exact ((keeps_log _ _ _ _).bind fun _ => .pure true).keepsEvents

theorem keepsEvents_reapIfDue (u : WorkerUnit) (now : Int) : KeepsEvents (u.reapIfDue now) := by
  have hreap : KeepsEvents (u.reap now) := by
    refine (keeps_ofExcept _ _).keepsEvents.bind fun age =>
      (keeps_ofExcept _ _).keepsEvents.bind fun cutoff => ?_
    exact (keepsEvents_operation (o := .findStale cutoff.micros reapLimit) rfl rfl).bind
      (u.keepsEvents_reapAll now)
  unfold reapIfDue
  split
  · exact hreap.bind fun _ => ((keeps_ofExcept _ _).bind fun _ => .pure _).keepsEvents
  · exact (Keeps.pure u).keepsEvents

/-- A turn of a unit sends deliveries of what was loaded with the claim that is handed out in it. -/
theorem sends_runOnce (u : WorkerUnit) (w : World) :
    ∃ sent, (u.runOnce w).2.2.network.requests = w.network.requests ++ sent ∧
      ∀ r ∈ sent, ∃ (x : Call) (claim : Claim) (now : Int), w.store.Leads x.before ∧
        x.before.tables.events = w.store.tables.events ∧ x.Claims claim ∧
        r.IsDelivery u.settings claim.event claim.subscription (ClockTime.unixSeconds now) := by
  have hleads := u.leads_reapIfDue w.clock w
  have hquiet := (u.sends_reapIfDue w.clock).requests_eq w
  have hevents := u.keepsEvents_reapIfDue w.clock w
  unfold runOnce
  dsimp only
  cases hr : u.reapIfDue w.clock w with
  | mk result v =>
    rw [hr] at hleads hquiet hevents
    cases result with
    | error e => exact ⟨[], by simpa using hquiet, by simp⟩
    | ok u' =>
      obtain ⟨next, rfl⟩ : ∃ next, u' = { u with nextReap := next } :=
        unit_of_reapIfDue (w := w) (by rw [hr])
      obtain ⟨sent, hs, hall⟩ := sends_claimAndProcess { u with nextReap := next } w.clock v
      refine ⟨sent, hquiet ▸ hs, fun r hmem => ?_⟩
      obtain ⟨claim, hclaim, now, hdelivery⟩ := hall r hmem
      exact ⟨⟨.claim u.claimant w.clock, v⟩, claim, now, hleads, hevents _ rfl, hclaim, hdelivery⟩

end WorkerUnit
end WebhookDelivery
