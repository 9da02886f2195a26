import WebhookDelivery.Pool
import WebhookDelivery.Proofs.Run

/-!
# WebhookDelivery.Proofs.WorkerRuns

What workers and the recovery of events do to the store is a run of single operations, whatever the
network does and wherever it breaks off.

* `Faithful known calls`: outcomes are recorded for attempts only that are known or that earlier calls
  handed out, by responses to them.
* `Performs p known body q`: all that `body` does to the store is done by faithful calls of operations
  among those of `p`, and its value is among those of `q`.
* `Operation.IsRegular`: an outcome is recorded with a response to the attempt itself, and a failed
  execution is repeated only if the retry policy decides for it.
* `performs_claimAndProcess`, `performs_reap`, `run_runOnce`: workers do work only, regularly and
  faithfully, and what does not claim attempts itself releases them at most.
* `performs_dispatchPending`: the recovery of events is made of single dispatches.
-/

namespace WebhookDelivery

/-- The time for which a retry is decided. -/
def RetryDecision.time? : Option RetryDecision → Option Int
  | some (.retryAt time _) => some time.micros
  | _ => none

/-- A decision that some policy makes after an execution of the attempt. -/
def Attempt.Decides (a : Attempt) (r : Response) (now : Int) (decision : Option RetryDecision) :
    Prop :=
  match r.failure? with
  | none => decision = none
  | some failure => ∃ (s : RetrySettings) (draws : Draws) (schedule : Option RetrySchedule)
      (d : RetryDecision), decision = some d ∧
      (s.decide draws schedule a.retryCount failure (.utc now)).1 = .ok d

/-- An outcome is recorded as workers do it. -/
def Operation.IsRegular : Operation → Prop
  | .finalize claimed r now retryAt => r.attemptId = claimed.attemptId ∧
      ∃ decision, claimed.Decides r now decision ∧ retryAt = RetryDecision.time? decision
  | _ => True

/-- The operation claims an attempt. -/
def Operation.isClaim : Operation → Bool
  | .claim _ _ => true
  | _ => false

/-- The operation claims an attempt, looks for claims that are held too long, or records an outcome. -/
def Operation.IsOfWorker : Operation → Prop
  | .claim _ _ | .findStale _ _ | .finalize _ _ _ _ => True
  | _ => False

/-- An operation as workers do it. -/
structure Operation.IsWork (o : Operation) : Prop where
  regular : o.IsRegular
  ofWorker : o.IsOfWorker

/-- At most outcomes are recorded, as workers do it. -/
def Operation.IsRelease (o : Operation) : Prop := o.IsWork ∧ o.isClaim = false

/-! ## Where claims come from -/

/-- The attempts that are handed out with an answer. -/
def Answer.handedOut : Answer → List Attempt
  | .claims found => found.map (·.attempt)
  | _ => []

def Call.HandsOut (x : Call) (a : Attempt) : Prop := ∃ b, x.answer = .ok b ∧ a ∈ b.handedOut

/-- The response is to the attempt. -/
structure Response.Answers (r : Response) (a : Attempt) : Prop where
  attemptId : r.attemptId = a.attemptId
  applicationId : r.applicationId = a.applicationId

/-- The response that is recorded of an attempt whose claim was abandoned. -/
structure Response.TimesOut (r : Response) (a : Attempt) (now : Int) : Prop where
  answers : r.Answers a
  createdAt : r.createdAt = .utc now
  headers : r.headers = none
  elapsed : 0 ≤ r.elapsedMs

/-- If an outcome is recorded, then that of a known attempt, by a response to it. -/
def Operation.Concludes (known : Attempt → Prop) : Operation → Prop
  | .finalize claimed r _ _ => known claimed ∧ r.Answers claimed
  | _ => True

theorem Operation.Concludes.mono {known known' : Attempt → Prop} {o : Operation}
    (h : o.Concludes known) (hk : ∀ a, known a → known' a) : o.Concludes known' := by
  cases o with
  | finalize claimed r now retryAt => exact ⟨hk claimed h.1, h.2⟩
  | _ => trivial

def Faithful (known : Attempt → Prop) : List Call → Prop
  | [] => True
  | x :: rest => x.operation.Concludes known ∧ Faithful (fun a => known a ∨ x.HandsOut a) rest

namespace Faithful

variable {known known' : Attempt → Prop} {calls more : List Call}

theorem mono (h : Faithful known calls) (hk : ∀ a, known a → known' a) :
    Faithful known' calls := by
  induction calls generalizing known known' with
  | nil => trivial
  | cons x rest ih => exact ⟨h.1.mono hk, ih h.2 fun a ha => ha.imp_left (hk a)⟩

/-- Calls that go on with what is known from the ones before them. -/
theorem append (h : Faithful known calls)
    (h' : Faithful (fun a => known a ∨ ∃ x ∈ calls, x.HandsOut a) more) :
    Faithful known (calls ++ more) := by
  induction calls generalizing known with
  | nil => exact h'.mono fun a ha => ha.resolve_right (by simp)
  | cons x rest ih =>
    refine ⟨h.1, ih h.2 (h'.mono fun a ha => ?_)⟩
    simpa [or_assoc] using ha

end Faithful

/-! ## Retries -/

/-- Only retryable failures are retried. -/
theorem RetrySettings.isRetryable_of_decide {s : RetrySettings} {draws : Draws}
    {schedule : Option RetrySchedule} {count : Int} {failure : Failure} {now time : ClockTime}
    {delay : Float}
    (h : (s.decide draws schedule count failure now).1 = .ok (.retryAt time delay)) :
    failure.isRetryable := by
  unfold decide giveUp? at h
  cases hr : failure.isRetryable with
  | true => rfl
  | false =>
    simp only [hr] at h
    cases h

theorem Operation.IsRegular.isRetryable {claimed : Attempt} {r : Response} {now due : Int}
    (h : (finalize claimed r now (some due)).IsRegular) :
    ∃ failure, r.failure? = some failure ∧ failure.isRetryable := by
  obtain ⟨-, decision, hd, ht⟩ := h
  unfold Attempt.Decides at hd
  cases hf : r.failure? with
  | none =>
    rw [hf] at hd
    subst hd
    cases ht
  | some failure =>
    rw [hf] at hd
    obtain ⟨s, draws, schedule, d, rfl, hs⟩ := hd
    cases d with
    | giveUp why => cases ht
    | retryAt time delay => exact ⟨failure, rfl, RetrySettings.isRetryable_of_decide hs⟩

namespace Engine

variable {α β : Type}

def Performs (p : Operation → Prop) (known : Attempt → Prop) (body : Engine α) (q : α → Prop) :
    Prop :=
  ∀ w, (∃ calls, Run w.store calls (body w).2.store ∧ (∀ x ∈ calls, p x.operation) ∧
    Faithful known calls) ∧ ∀ a, (body w).1 = .ok a → q a

namespace Performs

variable {p p' : Operation → Prop} {known : Attempt → Prop} {body : Engine α} {q q' : α → Prop}

theorem mono (h : Performs p known body q) (hq : ∀ a, q a → q' a) : Performs p known body q' :=
  fun w => ⟨(h w).1, fun a ha => hq a ((h w).2 a ha)⟩

theorem any (h : Performs p known body q) : Performs p known body fun _ => True :=
  h.mono fun _ _ => trivial

theorem weaken (h : Performs p known body q) (hp : ∀ o, p o → p' o) :
    Performs p' known body q := by
  intro w
  obtain ⟨⟨calls, hrun, hc, hf⟩, hq⟩ := h w
  exact ⟨⟨calls, hrun, fun x hx => hp _ (hc x hx), hf⟩, hq⟩

/-- What leaves the store alone performs nothing. -/
theorem quiet (hs : Keeps body) (hq : ∀ w a, (body w).1 = .ok a → q a) :
    Performs p known body q :=
  fun w => ⟨⟨[], by rw [hs w]; exact .nil _, fun _ hx => absurd hx List.not_mem_nil, trivial⟩, hq w⟩

theorem pure (a : α) : Performs p known (pure a) (· = a) :=
  quiet (Keeps.pure a) fun _ b hb => by cases hb; rfl

theorem throw (e : OperationError) (q : α → Prop) : Performs p known (throw e) q :=
  quiet (Keeps.throw e) fun _ b hb => by cases hb

/-- An operation performs itself, and what follows it knows what it has handed out. -/
theorem handOut {o : Operation} (ho : p o) (hc : o.Concludes known) {answer : α → Answer}
    (h : o.run = answer <$> body) {f : α → Engine β} {r : β → Prop}
    (hf : ∀ a, Performs p (fun b => known b ∨ b ∈ (answer a).handedOut) (f a) r) :
    Performs p known (body >>= f) r := by
  intro w
  have hx : o.run w = (answer <$> body) w := by rw [h]
  rw [map_apply] at hx
  rw [bind_apply]
  cases hb : body w with
  | mk result v =>
    rw [hb] at hx
    cases result with
    | error e =>
      have ha : (⟨o, w⟩ : Call).after = v.store := by rw [Call.after, hx]
      refine ⟨⟨[⟨o, w⟩], ha ▸ .cons (x := ⟨o, w⟩) (.nil _), ?_, hc, trivial⟩, fun b hb => by cases hb⟩
      simpa using ho
    | ok a =>
      have ha : (⟨o, w⟩ : Call).after = v.store := by rw [Call.after, hx]
      obtain ⟨⟨calls, hrun, hp, hfaith⟩, hr⟩ := hf a v
      rw [← ha] at hrun
      refine ⟨⟨⟨o, w⟩ :: calls, .cons (x := ⟨o, w⟩) hrun, ?_, hc, hfaith.mono ?_⟩, hr⟩
      · simpa using ⟨ho, hp⟩
      · intro b hb
        refine hb.imp_right fun hb => ⟨answer a, ?_, hb⟩
        rw [Call.answer, hx]

theorem bind {x : Engine α} {f : α → Engine β} {r : β → Prop} (hx : Performs p known x q)
    (hf : ∀ a, q a → Performs p known (f a) r) : Performs p known (x >>= f) r := by
  intro w
  obtain ⟨⟨calls, hrun, hp, hfaith⟩, hq⟩ := hx w
  rw [bind_apply]
  cases hr : x w with
  | mk result v =>
    rw [hr] at hrun hq
    cases result with
    | error e => exact ⟨⟨calls, hrun, hp, hfaith⟩, fun b hb => by cases hb⟩
    | ok a =>
      obtain ⟨⟨more, hrun', hp', hfaith'⟩, hq'⟩ := hf a (hq a rfl) v
      refine ⟨⟨calls ++ more, hrun.append hrun', fun y hy => ?_,
        hfaith.append (hfaith'.mono fun a ha => .inl ha)⟩, hq'⟩
      rcases List.mem_append.mp hy with hy | hy
      · exact hp y hy
      · exact hp' y hy

/-- An operation performs itself. -/
theorem operation {o : Operation} (ho : p o) (hc : o.Concludes known) {answer : α → Answer}
    (h : o.run = answer <$> body) : Performs p known body fun _ => True := by
  have hb := handOut ho hc h (f := fun a => Pure.pure a) (r := fun _ => True)
    fun a => (Performs.pure a).any
  rwa [bind_pure] at hb

theorem withFields (fields : LogFields) (h : Performs p known body q) :
    Performs p known (withFields fields body) q :=
  fun w => h { w with log := w.log.bind fields }

theorem attempt? (h : Performs p known body q) :
    Performs p known (attempt? body) fun result => ∀ a, result = .ok a → q a :=
  fun w => ⟨(h w).1, fun a ha b hb => (h w).2 b (by cases ha; exact hb)⟩

end Performs

variable {p : Operation → Prop} {known : Attempt → Prop}

theorem performs_log (level : LogLevel) (logger event : String) (fields : LogFields) :
    Performs p known (log level logger event fields) fun _ => True :=
  .quiet (keeps_log _ _ _ _) fun _ _ _ => trivial

theorem performs_clock : Performs p known clock fun _ => True :=
  .quiet (fun _ => rfl) fun _ _ _ => trivial

theorem performs_ofExcept {ε : Type} (wrap : ε → OperationError) (r : Except ε α) :
    Performs p known (ofExcept wrap r) fun a => r = .ok a := by
  cases r with
  | ok a => exact (Performs.pure a).mono fun _ h => by rw [h]
  | error e => exact .throw _ _

end Engine

/-! ## Executions -/

namespace Client

open Engine

variable {p : Operation → Prop} {known : Attempt → Prop}

theorem performs_respond (start : Int) (a : Attempt) (error : Option FailureKind)
    (received : Option Received) :
    Performs p known (respond start a error received) fun r => r.Answers a :=
  .quiet (fun _ => rfl) fun _ r hr => by cases hr; exact ⟨rfl, rfl⟩

theorem performs_deliver (settings : WorkerSettings) (fields : LogFields) (start : Int)
    (a : Attempt) (e : Event) (s : Subscription) (now : Int) :
    Performs p known (deliver settings fields start a e s now) fun r => r.Answers a := by
  refine (performs_ofExcept _ _).bind fun _ _ => (performs_ofExcept _ _).bind fun _ _ =>
    (performs_ofExcept _ _).bind fun headers _ => ?_
  have hx : Performs p known (exchange settings s.target.method s.target.url headers e.payload)
      fun _ => True := .quiet (fun _ => rfl) fun _ _ _ => trivial
  refine hx.bind fun x _ => ?_
  obtain ⟨reply, exchange⟩ := x
  dsimp only
  split
  all_goals first
    | exact .throw _ _
    | exact (performs_log _ _ _ _).bind fun _ _ => performs_respond _ _ _ _

/-- An execution leaves the store alone and answers its attempt. -/
theorem performs_execute (settings : WorkerSettings) (a : Attempt) (e : Event) (s : Subscription)
    (now : Int) : Performs p known (execute settings a e s now) fun r => r.Answers a := by
  have hget : Performs p known (get : Engine World) fun _ => True :=
    .quiet (fun _ => rfl) fun _ _ _ => trivial
  have hcheck : Performs p known (checkTarget settings s.target.url) fun _ => True :=
    .quiet (fun _ => rfl) fun _ _ _ => trivial
  refine hget.bind fun w _ => hcheck.bind fun check _ => ?_
  cases check with
  | allowed => exact performs_deliver _ _ _ _ _ _ _
  | refused why => exact (performs_log _ _ _ _).bind fun _ _ => performs_respond _ _ _ _
  | unresolved err => exact (performs_log _ _ _ _).bind fun _ _ => performs_respond _ _ _ _
  | unreadableHost e => exact .throw _ _
  | unreadableAddress address => exact .throw _ _

end Client

/-! ## Workers -/

namespace WorkerUnit

open Engine

variable {known : Attempt → Prop}

/-- A decision uses up draws and nothing else. -/
theorem decide_apply {u : WorkerUnit} {claim : Claim} {r : Response} {failure : Failure} {now : Int}
    {w : World} {decision : Except RetryError RetryDecision} {draws : Draws}
    (hf : r.failure? = some failure)
    (hd : u.policy.decide w.draws claim.subscription.retrySchedule claim.attempt.retryCount failure
      (.utc now) = (decision, draws)) :
    u.decide claim r now w =
      ((decision.map some).mapError .retry, { w with draws := draws }) := by
  have hg : (get : Engine World) w = (.ok w, w) := rfl
  unfold WorkerUnit.decide
  rw [hf]
  dsimp only
  rw [bind_apply, hg]
  dsimp only
  rw [hd]
  cases decision <;> rfl

theorem performs_decide {p : Operation → Prop} (u : WorkerUnit) (claim : Claim) (r : Response)
    (now : Int) : Performs p known (u.decide claim r now) (claim.attempt.Decides r now) := by
  cases hf : r.failure? with
  | none =>
    unfold WorkerUnit.decide Attempt.Decides
    rw [hf]
    exact .pure none
  | some failure =>
    refine .quiet (fun w => by rw [decide_apply hf rfl]) fun w decision hd => ?_
    cases hp : u.policy.decide w.draws claim.subscription.retrySchedule claim.attempt.retryCount
      failure (.utc now) with
    | mk result draws =>
      rw [decide_apply hf hp] at hd
      unfold Attempt.Decides
      rw [hf]
      cases result with
      | error e => cases hd
      | ok d =>
        cases hd
        exact ⟨_, _, _, d, rfl, congrArg Prod.fst hp⟩

/-- An outcome is recorded by one operation, as the retry policy decides. -/
theorem performs_finalize {p : Operation → Prop} (u : WorkerUnit) {claim : Claim}
    (hk : known claim.attempt) {r : Response} {now : Int} (hr : r.Answers claim.attempt)
    (hp : ∀ decision, claim.attempt.Decides r now decision →
      p (.finalize claim.attempt r now (RetryDecision.time? decision))) :
    Performs p known (u.finalize claim r now) fun _ => True := by
  refine (u.performs_decide claim r now).bind fun decision hd => ?_
  refine (Performs.operation (hp decision hd) ⟨hk, hr⟩ rfl).bind fun held _ => ?_
  cases held with
  | false => exact (Performs.pure false).any
  | true =>
    have hlog : Performs p known (logDecision r decision) fun _ => True := by
      unfold logDecision
      split <;> exact performs_log _ _ _ _
    exact hlog.bind fun _ _ => (Performs.pure true).any

theorem isRelease_finalize {a : Attempt} {r : Response} {now : Int}
    {decision : Option RetryDecision} (hr : r.Answers a) (hd : a.Decides r now decision) :
    (Operation.finalize a r now (RetryDecision.time? decision)).IsRelease :=
  ⟨⟨⟨hr.attemptId, decision, hd, rfl⟩, trivial⟩, rfl⟩

theorem performs_process (u : WorkerUnit) {claim : Claim} (hk : known claim.attempt) :
    Performs Operation.IsRelease known (u.process claim) fun _ => True := by
  refine performs_clock.bind fun now _ => (Client.performs_execute _ _ _ _ _).bind fun r hr => ?_
  exact performs_clock.bind fun later _ =>
    u.performs_finalize hk hr fun _ hd => isRelease_finalize hr hd

theorem performs_processSafely (u : WorkerUnit) {claim : Claim} (hk : known claim.attempt) :
    Performs Operation.IsRelease known (u.processSafely claim) fun _ => True := by
  refine Performs.withFields _ ((u.performs_process hk).attempt?.bind fun result _ => ?_)
  cases result with
  | ok _ => exact (Performs.pure ()).any
  | error e =>
    dsimp only
    split
    · exact .throw _ _
    · exact .quiet (fun _ => rfl) fun _ _ _ => trivial

theorem performs_claimAndProcess (u : WorkerUnit) (known : Attempt → Prop) (now : Int) :
    Performs Operation.IsWork known (u.claimAndProcess now) fun _ => True := by
  have ho : (Operation.claim u.claimant now).IsWork := ⟨trivial, trivial⟩
  refine Performs.handOut ho trivial rfl fun found => ?_
  cases found with
  | none => exact (Performs.pure false).any
  | some claim =>
    have hk : known claim.attempt ∨
        claim.attempt ∈ (Answer.claims (some claim).toList).handedOut := .inr List.mem_cons_self
    exact ((u.performs_processSafely hk).weaken fun o ho => ho.1).bind fun _ _ =>
      (Performs.pure true).any

theorem performs_abandonedResponse {p : Operation → Prop} (a : Attempt) (now : Int) :
    Performs p known (abandonedResponse a now) fun r => r.TimesOut a now :=
  .quiet (fun _ => rfl) fun _ r hr => by
    cases hr
    exact ⟨⟨rfl, rfl⟩, rfl, rfl, Int.le_max_right _ _⟩

theorem performs_reapAll {p : Operation → Prop} (u : WorkerUnit) {now : Int}
    (hp : ∀ a r decision, r.TimesOut a now → a.Decides r now decision →
      p (.finalize a r now (RetryDecision.time? decision))) {claims : List Claim}
    (hk : ∀ claim ∈ claims, known claim.attempt) :
    Performs p known (u.reapAll now claims) fun _ => True := by
  induction claims with
  | nil => exact (Performs.pure 0).any
  | cons claim rest ih =>
    rw [List.forall_mem_cons] at hk
    refine (performs_abandonedResponse _ _).bind fun r hr => ?_
    refine Performs.bind (q := fun _ => True) (Performs.withFields _
      ((u.performs_finalize hk.1 hr.answers fun decision hd => hp _ r decision hr hd).bind
        fun reaped _ => ?_))
      fun _ _ => (ih hk.2).bind fun _ _ => (Performs.pure _).any
    cases reaped with
    | false => exact (Performs.pure false).any
    | true =>
      exact (performs_log _ _ _ _).bind fun _ _ => (Performs.pure true).any

/-- Reaping looks for claims that are held too long and records each of them as timed out. -/
theorem performs_reap_of {p : Operation → Prop} (u : WorkerUnit) (known : Attempt → Prop) {now : Int}
    (hs : ∀ before limit, p (.findStale before limit))
    (hp : ∀ a r decision, r.TimesOut a now → a.Decides r now decision →
      p (.finalize a r now (RetryDecision.time? decision))) :
    Performs p known (u.reap now) fun _ => True := by
  refine (performs_ofExcept _ _).bind fun age _ => (performs_ofExcept _ _).bind fun cutoff _ => ?_
  exact Performs.handOut (hs cutoff.micros reapLimit) trivial rfl fun claims =>
    u.performs_reapAll hp fun claim hc => .inr (List.mem_map_of_mem hc)

theorem performs_reap (u : WorkerUnit) (known : Attempt → Prop) (now : Int) :
    Performs Operation.IsRelease known (u.reap now) fun _ => True :=
  u.performs_reap_of known (fun _ _ => ⟨⟨trivial, trivial⟩, rfl⟩) fun _ _ _ hr hd =>
    isRelease_finalize hr.answers hd

theorem performs_reapIfDue (u : WorkerUnit) (known : Attempt → Prop) (now : Int) :
    Performs Operation.IsRelease known (u.reapIfDue now) fun _ => True := by
  unfold reapIfDue
  split
  · exact (u.performs_reap known now).bind fun _ _ => (performs_ofExcept _ _).bind fun _ _ =>
      (Performs.pure _).any
  · exact (Performs.pure u).any

theorem run_runOnce (known : Attempt → Prop) (u : WorkerUnit) (w : World) :
    ∃ calls, Run w.store calls (u.runOnce w).2.2.store ∧ (∀ x ∈ calls, x.operation.IsWork) ∧
      Faithful known calls := by
  obtain ⟨⟨calls, hrun, hp, hf⟩, -⟩ := u.performs_reapIfDue known w.clock w
  unfold runOnce
  dsimp only
  cases hr : u.reapIfDue w.clock w with
  | mk result v =>
    rw [hr] at hrun
    cases result with
    | error e => exact ⟨calls, hrun, fun x hx => (hp x hx).1, hf⟩
    | ok u' =>
      obtain ⟨⟨more, hrun', hp', hf'⟩, -⟩ := u'.performs_claimAndProcess known w.clock v
      refine ⟨calls ++ more, hrun.append hrun', fun x hx => ?_,
        hf.append (hf'.mono fun a ha => .inl ha)⟩
      rcases List.mem_append.mp hx with hx | hx
      · exact (hp x hx).1
      · exact hp' x hx

end WorkerUnit

/-! ## Recovery -/

theorem Tables.mem_undispatched {t : Tables} {limit : Int} {e : Event}
    (h : e ∈ t.undispatched limit) : e ∈ t.events ∧ e.dispatchedAt = none := by
  have hrow := List.mem_mergeSort.mp (mem_of_mem_limited h)
  exact ⟨List.mem_of_mem_filter hrow, by simpa using (List.mem_filter.mp hrow).2⟩

namespace Engine

theorem keeps_listUndispatched (limit : Int) : Keeps (listUndispatched limit) :=
  (Keeps.atomically ((keeps_touch _).bind fun _ => (keeps_checkInteger _).bind fun _ =>
    keeps_tables.bind fun _ => .pure _)).bind fun rows => .mapM (fun _ => keeps_ofExcept _ _) rows

/-- Events that are not dispatched are given as they are stored, if they all pass the check. -/
theorem meets_listUndispatched (limit : Int) :
    Meets (listUndispatched limit) fun d events d' => events = d.tables.undispatched limit ∧
      (∀ e ∈ events, e.check = .ok e) ∧ d' = d := by
  have hread : ∀ e : Event, Meets (readEvent e) fun d x d' => e.check = .ok x ∧ d' = d :=
    fun e => meets_ofExcept _ _
  refine ((Meets.atomically ((meets_touch _).bind fun _ => (meets_checkInteger limit).bind fun _ =>
    meets_tables.bind fun t => .pure (t.undispatched limit))).bind fun rows =>
    meets_mapM (p := fun _ e x => e.check = .ok x) hread rows).mono ?_
  rintro d events d' ⟨_, _, ⟨_, _, rfl, _, _, rfl, t, _, ⟨rfl, rfl⟩, rfl, rfl⟩, hall, rfl⟩
  have hsame : ∀ {rows events : List Event},
      List.Forall₂ (fun e x => e.check = .ok x) rows events →
        events = rows ∧ ∀ e ∈ events, e.check = .ok e := by
    intro rows events h
    induction h with
    | nil => simp
    | cons h _ ih =>
      obtain rfl := Event.eq_of_check h
      exact ⟨by rw [ih.1], List.forall_mem_cons.mpr ⟨h, ih.2⟩⟩
  exact ⟨(hsame hall).1, (hsame hall).2, rfl⟩

theorem performs_ingestAll {p : Operation → Prop} {known : Attempt → Prop} {now : Int}
    {events : List Event} (hp : ∀ e ∈ events, p (.ingest e now)) :
    Performs p known (ingestAll now events) fun _ => True := by
  induction events with
  | nil => exact (Performs.pure 0).any
  | cons e rest ih =>
    rw [List.forall_mem_cons] at hp
    have hc : (Operation.ingest e now).Concludes known := trivial
    exact (Performs.operation hp.1 hc rfl).bind fun _ _ => (ih hp.2).bind fun _ _ =>
      (Performs.pure _).any

/-- The recovery of events is made of single dispatches, of events that are stored and can be read. -/
theorem run_dispatchPending (known : Attempt → Prop) (now limit : Int) (w : World) :
    ∃ calls, Run w.store calls (dispatchPending now limit w).2.store ∧
      (∀ x ∈ calls, ∃ e ∈ w.store.tables.undispatched limit, e.check = .ok e ∧
        x.operation = .ingest e now) ∧ Faithful known calls := by
  have hkeeps := keeps_listUndispatched limit w
  have hlisted := (meets_listUndispatched limit w).2
  unfold dispatchPending
  rw [bind_apply]
  cases hr : listUndispatched limit w with
  | mk result v =>
    rw [hr] at hkeeps hlisted
    cases result with
    | error e => exact ⟨[], hkeeps ▸ .nil _, by simp, trivial⟩
    | ok events =>
      obtain ⟨hrows, hcheck, -⟩ := hlisted events rfl
      have hrest : Performs (fun o => ∃ e ∈ events, e.check = .ok e ∧ o = .ingest e now) known
          (ingestAll now events >>= fun created => do
            if !events.isEmpty then
              log .info dispatchLogger "Recovered undispatched events"
                [("events", .int events.length), ("attempts", .int created)]
            return created) fun _ => True := by
        refine (performs_ingestAll fun e hm => ⟨e, hm, hcheck e hm, rfl⟩).bind fun created _ => ?_
        dsimp only
        split
        · exact (performs_log _ _ _ _).bind fun _ _ => (Performs.pure created).any
        · exact (Performs.pure created).any
      obtain ⟨⟨calls, hrun, hoperations, hf⟩, -⟩ := hrest v
      refine ⟨calls, hkeeps ▸ hrun, fun x hx => ?_, hf⟩
      obtain ⟨e, he, hc, ho⟩ := hoperations x hx
      exact ⟨e, hrows ▸ he, hc, ho⟩

theorem performs_dispatchPending (known : Attempt → Prop) (now limit : Int) :
    Performs (fun o => ∃ e, e.dispatchedAt = none ∧ e.check = .ok e ∧ o = .ingest e now) known
      (dispatchPending now limit) fun _ => True := by
  intro w
  obtain ⟨calls, hrun, hoperations, hf⟩ := run_dispatchPending known now limit w
  refine ⟨⟨calls, hrun, fun x hx => ?_, hf⟩, fun _ _ => trivial⟩
  obtain ⟨e, he, hc, ho⟩ := hoperations x hx
  exact ⟨e, (Tables.mem_undispatched he).2, hc, ho⟩

end Engine
end WebhookDelivery
