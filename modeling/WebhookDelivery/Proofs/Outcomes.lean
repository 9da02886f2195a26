import WebhookDelivery.Proofs.Exchanges
import WebhookDelivery.Proofs.Sending
import WebhookDelivery.Proofs.Statuses

/-!
# WebhookDelivery.Proofs.Outcomes

What is recorded of an execution, and what becomes of its attempt.

* `Client.Occurs`: what happens in an execution, by the error that it is recorded with.
* `Client.execute_tells`: the response of an execution, by the target check and the exchange.
* `WorkerUnit.Settles`: a turn of a unit that hands out a claim and records the outcome.
* `executions_have_one_outcome`: the error that is recorded in such a turn is the one that occurs, and
  it decides whether the attempt succeeds, is retried or fails.
-/

namespace WebhookDelivery

/-- The time that the settings allow for an exchange. -/
def WorkerSettings.allowance (s : WorkerSettings) : Exchange.Allowance :=
  (ClockTime.microsOfSeconds? s.timeout).toOption

/-- The number of bytes of a body that are kept. -/
def WorkerSettings.bodyLimit (s : WorkerSettings) : Nat := s.maxBodyBytes.toNat

/-- What a response tells of an execution: its error, and what has been received. -/
structure Response.Tells (r : Response) (error : Option FailureKind)
    (received : Option Client.Received) : Prop where
  error : r.error = error
  httpCode : r.httpCode = received.map (·.status)
  headers : r.headers = received.map fun x => x.headers.map fun h => (h.1, .str h.2)
  body : r.body = received.map (·.body)

/-- A response that calls for a retry names one of these reasons. -/
theorem Response.isRetryable_iff (r : Response) : r.IsRetryable ↔
    r.error = some .timeout ∨ r.error = some .connection ∨
      r.error = some .http ∧ ∃ code, r.httpCode = some code ∧
        (500 ≤ code ∨ code = 408 ∨ code = 429) := by
  unfold IsRetryable failure? Failure.isRetryable
  cases r.error with
  | none => simp
  | some kind =>
    cases kind with
    | http => cases r.httpCode <;> simp [or_assoc]
    | _ => simp

namespace Client

open Engine

/-! ## Responses -/

/-- A response that is given after a line has been logged. -/
theorem tells_respond {level : LogLevel} {logger event : String} {fields : LogFields} {start : Int}
    {a : Attempt} {error : Option FailureKind} {received : Option Received} {w : World}
    {r : Response} (h : ((do
      Engine.log level logger event fields
      respond start a error received) w).1 = .ok r) : r.Tells error received := by
  cases h
  exact ⟨rfl, rfl, rfl, rfl⟩

/-- What a response tells of an exchange with a reply. -/
def TellsOf (reply : Reply) (result : ExchangeResult) (r : Response) : Prop :=
  match result with
  | .timedOut | .broken .timeout => r.Tells (some .timeout) none
  | .broken (.invalidUrl _) | .broken (.unsupportedProtocol _) => r.Tells (some .invalidTarget) none
  | .broken (.connection _) => r.Tells (some .connection) none
  | .broken (.crash _) => False
  | .complete body =>
    r.Tells (if isSuccess reply.status then none else some .http) (some (received reply body))

theorem tells_conclude {fields : LogFields} {start : Int} {a : Attempt} {x : Reply × Exchange}
    {w : World} {r : Response} (h : (conclude fields start a x w).1 = .ok r) :
    TellsOf x.1 x.2.result r := by
  unfold conclude at h
  unfold TellsOf
  cases hresult : x.2.result with
  | timedOut =>
    rw [hresult] at h
    exact tells_respond h
  | complete body =>
    rw [hresult] at h
    exact tells_respond h
  | broken f =>
    rw [hresult] at h
    cases f with
    | crash m => cases h
    | _ => exact tells_respond h

theorem tells_deliver {settings : WorkerSettings} {fields : LogFields} {start : Int} {a : Attempt}
    {e : Event} {s : Subscription} {now : Int} {w : World} {r : Response}
    (h : (deliver settings fields start a e s now w).1 = .ok r) :
    TellsOf w.network.nextReply
      (Exchange.ofReply settings.bodyLimit settings.allowance w.network.nextReply).result r := by
  rw [deliver_eq] at h
  cases hheaders : outboundHeaders settings e s (ClockTime.unixSeconds now) with
  | error error =>
    rw [hheaders] at h
    cases h
  | ok headers =>
    rw [hheaders] at h
    exact tells_conclude h

/-- What a response tells of an execution whose target was checked. -/
def TellsOfCheck (settings : WorkerSettings) (reply : Reply) (r : Response) : TargetCheck → Prop
  | .refused _ => r.Tells (some .invalidTarget) none
  | .unresolved _ => r.Tells (some .connection) none
  | .unreadableHost _ | .unreadableAddress _ => False
  | .allowed =>
    TellsOf reply (Exchange.ofReply settings.bodyLimit settings.allowance reply).result r

/-- What a client does after a target has been checked. -/
def proceed (settings : WorkerSettings) (fields : LogFields) (start : Int) (a : Attempt) (e : Event)
    (s : Subscription) (now : Int) : TargetCheck → Engine Response
  | .refused why => do
    log .warning logger "Invalid target" (fields ++ [("reason", .str why.message)])
    respond start a (some .invalidTarget) none
  | .unresolved e => do
    log .info logger "Target resolution failed" (fields ++ [("error", .str e.message)])
    respond start a (some .connection) none
  | .unreadableHost e => throw (.unreadableHost e)
  | .unreadableAddress address => throw (.unreadableAddress address)
  | .allowed => deliver settings fields start a e s now

theorem execute_eq (settings : WorkerSettings) (a : Attempt) (e : Event) (s : Subscription)
    (now : Int) : ∃ fields, execute settings a e s now = (do
      let w ← get
      let check ← checkTarget settings s.target.url
      proceed settings fields w.elapsed a e s now check) :=
  ⟨_, rfl⟩

theorem tells_proceed {settings : WorkerSettings} {fields : LogFields} {start : Int} {a : Attempt}
    {e : Event} {s : Subscription} {now : Int} {check : TargetCheck} {w : World} {r : Response}
    (h : (proceed settings fields start a e s now check w).1 = .ok r) :
    TellsOfCheck settings w.network.nextReply r check := by
  cases check with
  | refused why => exact tells_respond h
  | unresolved error => exact tells_respond h
  | unreadableHost e => cases h
  | unreadableAddress address => cases h
  | allowed => exact tells_deliver h

/-- A check of the target leaves the receiver alone. -/
theorem checkTarget_apply (settings : WorkerSettings) (url : String) (w : World) :
    ∃ v, checkTarget settings url w =
        (.ok (w.network.checkTarget (!settings.disableTargetCheck) url).1, v) ∧
      v.network.nextReply = w.network.nextReply :=
  ⟨_, rfl, rfl⟩

theorem execute_tells {settings : WorkerSettings} {a : Attempt} {e : Event} {s : Subscription}
    {now : Int} {w : World} {r : Response} (h : (execute settings a e s now w).1 = .ok r) :
    TellsOfCheck settings w.network.nextReply r
      (w.network.checkTarget (!settings.disableTargetCheck) s.target.url).1 := by
  obtain ⟨fields, heq⟩ := execute_eq settings a e s now
  obtain ⟨v, hcheck, hreply⟩ := checkTarget_apply settings s.target.url w
  have hget : (get : Engine World) w = (.ok w, w) := rfl
  rw [heq, bind_apply, hget] at h
  dsimp only at h
  rw [bind_apply, hcheck] at h
  rw [← hreply]
  exact tells_proceed h

/-! ## What happens in an execution -/

/-- What happens when an execution is recorded with an error, or without one: the target may be
refused or not be found; then a complete reply may come in time, the time may run out, or the
exchange may break off first. -/
def Occurs (settings : WorkerSettings) (network : Network) (url : String)
    (error : Option FailureKind) : Prop :=
  let check := (network.checkTarget (!settings.disableTargetCheck) url).1
  let reply := network.nextReply
  let arrives := ∃ body, reply.Arrives settings.bodyLimit settings.allowance body
  let breaksOff := reply.BreaksOff settings.bodyLimit settings.allowance
  match error with
  | none => check = .allowed ∧ arrives ∧ 200 ≤ reply.status ∧ reply.status ≤ 299
  | some .http => check = .allowed ∧ arrives ∧ ¬ (200 ≤ reply.status ∧ reply.status ≤ 299)
  | some .timeout => check = .allowed ∧
      (reply.ComesTooLate settings.bodyLimit settings.allowance ∨ breaksOff .timeout)
  | some .invalidTarget => (∃ why, check = .refused why) ∨
      check = .allowed ∧ ∃ m, breaksOff (.invalidUrl m) ∨ breaksOff (.unsupportedProtocol m)
  | some .connection => (∃ e, check = .unresolved e) ∨
      check = .allowed ∧ ∃ m, breaksOff (.connection m)

/-- The error of a response is the one that occurs. -/
theorem error_iff_occurs {settings : WorkerSettings} {network : Network} {url : String}
    {r : Response} (h : TellsOfCheck settings network.nextReply r
      (network.checkTarget (!settings.disableTargetCheck) url).1)
    (error : Option FailureKind) : r.error = error ↔ Occurs settings network url error := by
  unfold Occurs
  simp only [← Reply.arrives_iff, ← Reply.comesTooLate_iff, ← Reply.breaksOff_iff]
  cases hcheck : (network.checkTarget (!settings.disableTargetCheck) url).1 with
  | unreadableHost e =>
    rw [hcheck] at h
    exact h.elim
  | unreadableAddress address =>
    rw [hcheck] at h
    exact h.elim
  | refused why =>
    rw [hcheck] at h
    rw [Response.Tells.error h]
    rcases error with _ | _ | _ | _ | _ <;> simp
  | unresolved e =>
    rw [hcheck] at h
    rw [Response.Tells.error h]
    rcases error with _ | _ | _ | _ | _ <;> simp
  | allowed =>
    rw [hcheck, TellsOfCheck] at h
    generalize (Exchange.ofReply settings.bodyLimit settings.allowance network.nextReply).result =
      result at h ⊢
    cases result with
    | timedOut =>
      rw [Response.Tells.error h]
      rcases error with _ | _ | _ | _ | _ <;> simp
    | complete body =>
      have hsuccess : isSuccess network.nextReply.status = true ↔
          200 ≤ network.nextReply.status ∧ network.nextReply.status ≤ 299 := by
        simp [isSuccess]
      rw [Response.Tells.error h]
      by_cases hs : isSuccess network.nextReply.status = true
      · have hrange := hsuccess.1 hs
        rcases error with _ | _ | _ | _ | _ <;> simp [hs, hrange]
      · have hrange := mt hsuccess.2 hs
        rcases error with _ | _ | _ | _ | _ <;> simp [hs, hrange]
    | broken f =>
      cases f with
      | crash m => exact h.elim
      | _ =>
        rw [Response.Tells.error h]
        rcases error with _ | _ | _ | _ | _ <;> simp

/-- A response tells of the reply that has arrived if it has no error or one of HTTP, and of nothing
received otherwise. -/
theorem received_of_tells {settings : WorkerSettings} {reply : Reply} {check : TargetCheck}
    {r : Response} (h : TellsOfCheck settings reply r check) :
    (r.error = none ∨ r.error = some .http) ∧
        (∃ body, reply.Arrives settings.bodyLimit settings.allowance body ∧
          r.Tells r.error (some (received reply body))) ∨
      r.error ≠ none ∧ r.error ≠ some .http ∧ r.Tells r.error none := by
  have of_failure : ∀ {kind : FailureKind}, r.Tells (some kind) none → kind ≠ .http →
      r.error ≠ none ∧ r.error ≠ some .http ∧ r.Tells r.error none := by
    intro kind ht hkind
    have herror : r.error = some kind := ht.error
    exact ⟨by simp [herror], by simpa [herror] using hkind, herror ▸ ht⟩
  cases check with
  | unreadableHost e => exact h.elim
  | unreadableAddress address => exact h.elim
  | refused why => exact .inr (of_failure h (by decide))
  | unresolved e => exact .inr (of_failure h (by decide))
  | allowed =>
    rw [TellsOfCheck] at h
    cases hresult : (Exchange.ofReply settings.bodyLimit settings.allowance reply).result with
    | timedOut =>
      rw [hresult] at h
      exact .inr (of_failure h (by decide))
    | complete body =>
      rw [hresult, TellsOf] at h
      refine .inl ⟨?_, body, Reply.arrives_iff.1 hresult, h.error.symm ▸ h⟩
      rw [h.error]
      split
      · exact .inl rfl
      · exact .inr rfl
    | broken f =>
      rw [hresult] at h
      cases f with
      | crash m => exact h.elim
      | _ => exact .inr (of_failure h (by decide))

end Client

/-! ## What becomes of the attempt -/

/-- The row shows the consequence of a response: it has succeeded, is free for another execution
because the response calls for one and there are retries left, or has failed. -/
structure AttemptRow.Shows (row : AttemptRow) (r : Response) (hasRetries : Prop) : Prop where
  responseId : row.responseId = some r.responseId
  succeeded : row.succeededAt.isSome = true ↔ r.error = none
  retried : row.isFree = true ↔ r.IsRetryable ∧ hasRetries
  failed : row.failedAt.isSome = true ↔ r.error ≠ none ∧ ¬ (r.IsRetryable ∧ hasRetries)

namespace Execution

variable {x : Execution} {e : Ending}

/-- There are retries left for the attempt. -/
def HasRetries (x : Execution) : Prop := x.claim.attempt.retryCount < x.ceiling

theorem Records.apply_shows (he : x.Records e) {row : AttemptRow} (ho : row.isOpen = true) :
    (e.outcome.apply e.response.responseId row).Shows x.response x.HasRetries := by
  have hout := he.outcome
  have hid : e.response = x.response := he.response
  obtain ⟨hs, hf⟩ : row.succeededAt = none ∧ row.failedAt = none := by
    simpa [AttemptRow.isOpen] using ho
  have herror : ∀ {failure : Failure}, x.response.failure? = some failure →
      x.response.error ≠ none := by
    intro failure hfailure hnone
    simp [Response.failure?, hnone] at hfailure
  cases h : e.outcome with
  | succeeded time =>
    rw [h] at hout
    have hnone : x.response.error = none := by simpa [Response.isSuccess] using hout
    have hno : ¬ x.response.IsRetryable := fun hr => by
      rw [hr.not_isSuccess] at hout
      cases hout
    constructor <;> simp [Outcome.apply, AttemptRow.isFree, AttemptRow.isOpen, hid, hf, hnone, hno]
  | retried due =>
    rw [h] at hout
    obtain ⟨failure, hfailure, hretry, hcount⟩ := hout
    have hyes : x.response.IsRetryable := ⟨failure, hfailure, hretry⟩
    have hleft : x.HasRetries := hcount
    constructor <;> simp [Outcome.apply, AttemptRow.isFree, AttemptRow.isOpen, hid, hs, hf,
      herror hfailure, hyes, hleft]
  | failed time =>
    rw [h] at hout
    obtain ⟨failure, hfailure, hwhy⟩ := hout
    have hno : ¬ (x.response.IsRetryable ∧ x.HasRetries) := by
      rintro ⟨⟨failure', hfailure', hretry⟩, hleft⟩
      rw [hfailure, Option.some.injEq] at hfailure'
      subst hfailure'
      rcases hwhy with hwhy | hwhy
      · rw [hretry] at hwhy
        cases hwhy
      · exact absurd hleft (Int.not_lt.2 hwhy)
    refine ⟨by simp [Outcome.apply, hid], by simp [Outcome.apply, hs, herror hfailure], ?_, ?_⟩
    · simpa [Outcome.apply, AttemptRow.isFree, AttemptRow.isOpen] using hno
    · simpa [Outcome.apply, herror hfailure] using hno

/-- A recorded execution adds its response, and its attempt shows the consequence. -/
theorem recorded (hi : x.before.IsIdle) (hs : x.before.tables.Indexed) (hr : x.IsRecorded) :
    x.after.tables.responses = x.before.tables.responses ++ [x.response.toRow] ∧
      ∃ row, x.after.tables.attempt? x.claim.attempt.attemptId = some row ∧
        row.Shows x.response x.HasRetries := by
  rcases x.effect hi with ⟨-, hn⟩ | ⟨e, he⟩
  · exact absurd hr hn
  · have hafter := hs.finish he.finish
    have htables := Tables.finish?_eq_ok hs.referencesUnchecked he.finish
    obtain ⟨old, hold, hheld⟩ := List.any_eq_true.1 he.held
    obtain ⟨hid, -, -, hopen⟩ := ClaimToken.holds_iff.1 hheld
    have hclaim : x.claim.attempt.attemptId = e.token.attemptId := by
      obtain ⟨time, -, htoken⟩ := Option.map_eq_some_iff.1 he.token
      rw [← htoken]
    have hrow : e.outcome.apply e.response.responseId old ∈ x.after.tables.attempts := by
      rw [htables]
      exact Tables.mem_updateRows.2 ⟨old, hold, by rw [if_pos hheld]⟩
    have hfind := Tables.attempt?_eq_some hafter hrow
    rw [(e.outcome.apply_frame _ old).1, hid, ← hclaim] at hfind
    exact ⟨by rw [htables, ← he.response], _, hfind, he.apply_shows hopen⟩

end Execution

/-! ## Turns -/

namespace WorkerUnit

open Engine

/-- A turn of a unit hands out a claim, which is executed in a world, and the outcome is recorded. -/
def Settles (u : WorkerUnit) (w : World) (claim : Claim) (start : World) : Prop :=
  ∃ (u' : WorkerUnit) (v v' : World), u.reapIfDue w.clock w = (.ok u', v) ∧
    claimNext u'.claimant w.clock v = (.ok (some claim), v') ∧
    start = { v' with log := v'.log.bind (Log.attemptFields claim.attempt) } ∧
    (u'.process claim start).1 = .ok true

/-- A claim whose outcome is recorded has been executed, and its response is what is recorded. -/
theorem process_recorded {u : WorkerUnit} {claim : Claim} {start : World}
    (h : (u.process claim start).1 = .ok true) :
    ∃ x : Execution, x.unit = u ∧ x.claim = claim ∧ x.before = start.store ∧ x.IsRecorded ∧
      x.after = (u.process claim start).2.store ∧
      (Client.execute u.settings claim.attempt claim.event claim.subscription start.clock start).1 =
        .ok x.response := by
  have hclock : ∀ w : World, clock w = (.ok w.clock, w) := fun _ => rfl
  have hkeeps : Keeps (Client.execute u.settings claim.attempt claim.event claim.subscription
      start.clock) := by
    have hperforms : Performs (fun _ => False) (fun _ => False)
        (Client.execute u.settings claim.attempt claim.event claim.subscription start.clock)
        fun r => r.Answers claim.attempt := Client.performs_execute _ _ _ _ _
    exact hperforms.keeps
  have hstore := hkeeps start
  unfold process at h ⊢
  rw [bind_apply, hclock] at h ⊢
  dsimp only at h ⊢
  rw [bind_apply] at h ⊢
  cases hr : Client.execute u.settings claim.attempt claim.event claim.subscription start.clock
      start with
  | mk result v =>
    rw [hr] at h hstore
    cases result with
    | error e => cases h
    | ok r =>
      dsimp only at h ⊢
      rw [bind_apply, hclock] at h ⊢
      exact ⟨⟨u, claim, r, v.clock, v⟩, rfl, rfl, hstore, h, rfl, rfl⟩

/-- After a turn that records an outcome the store is as the execution has left it. -/
theorem store_runOnce {u u' : WorkerUnit} {w v v' : World} {claim : Claim}
    (hreap : u.reapIfDue w.clock w = (.ok u', v))
    (hclaim : claimNext u'.claimant w.clock v = (.ok (some claim), v')) :
    (u.runOnce w).2.2.store = (u'.process claim
      { v' with log := v'.log.bind (Log.attemptFields claim.attempt) }).2.store := by
  unfold runOnce
  dsimp only
  rw [hreap]
  dsimp only
  rw [claimAndProcess, bind_apply, hclaim]
  dsimp only
  change ((u'.processSafely claim >>= fun _ => pure true) v').2.store = _
  rw [store_bind_of_keeps _ fun _ => .pure true]
  exact u'.store_processSafely claim v'

end WorkerUnit

open Engine in
/-- In every store that is reached, a turn that hands out a claim and records the outcome records one
response to its attempt. Its error is the one that occurs, and it tells of the reply that has arrived
or of none. The attempt succeeds if there is no error, is retried if the error calls for it and there
are retries left, and fails otherwise. -/
theorem executions_have_one_outcome {onFile : Bool} {u : WorkerUnit} {w start : World}
    {claim : Claim} (reached : (Store.create onFile).Strays w.store)
    (settles : u.Settles w claim start) :
    ∃ r : Response, r.Answers claim.attempt ∧
      (u.runOnce w).2.2.store.tables.responses = start.store.tables.responses ++ [r.toRow] ∧
      (∀ error, r.error = error ↔
        Client.Occurs u.settings start.network claim.subscription.target.url error) ∧
      ((r.error = none ∨ r.error = some .http) ∧
          (∃ body, start.network.nextReply.Arrives u.settings.bodyLimit u.settings.allowance body ∧
            r.Tells r.error (some (Client.received start.network.nextReply body))) ∨
        r.error ≠ none ∧ r.error ≠ some .http ∧ r.Tells r.error none) ∧
      ∃ row, (u.runOnce w).2.2.store.tables.attempt? claim.attempt.attemptId = some row ∧
        row.responseId = some r.responseId ∧
        (row.succeededAt.isSome = true ↔ r.error = none) ∧
        (row.isFree = true ↔
          (r.error = some .timeout ∨ r.error = some .connection ∨
            r.error = some .http ∧ ∃ code, r.httpCode = some code ∧
              (500 ≤ code ∨ code = 408 ∨ code = 429)) ∧
          claim.attempt.retryCount < u.policy.ceiling claim.subscription.retrySchedule) ∧
        (row.failedAt.isSome = true ↔ r.error ≠ none ∧ row.isFree = false) := by
  obtain ⟨u', v, v', hreap, hclaim, rfl, hrecorded⟩ := settles
  have hstore := WorkerUnit.store_runOnce hreap hclaim
  obtain ⟨x, hunit, hxclaim, hbefore, hrec, hafter, hexecute⟩ :=
    WorkerUnit.process_recorded hrecorded
  rw [← hafter] at hstore
  have hcoherent : x.before.IsCoherent := by
    have hreap' := u.leads_reapIfDue w.clock w
    have hclaim' := WorkerUnit.leads_claimNext u'.claimant w.clock v
    rw [hreap] at hreap'
    rw [hclaim] at hclaim'
    have hall : (Store.create onFile).Strays x.before := by
      rw [hbefore]
      exact reached.trans (Store.Leads.strays (hreap'.trans hclaim'))
    exact hall.isCoherent (Store.isCoherent_create onFile)
  obtain ⟨hresponses, row, hrow, hshows⟩ := x.recorded hcoherent.idle hcoherent.indexed hrec
  obtain ⟨next, rfl⟩ : ∃ next, u' = { u with nextReap := next } :=
    WorkerUnit.unit_of_reapIfDue (w := w) (by rw [hreap])
  have hanswers : x.response.Answers claim.attempt := by
    have hperforms : Performs (fun _ => False) (fun _ => False) _ _ :=
      Client.performs_execute u.settings claim.attempt claim.event claim.subscription v'.clock
    exact (hperforms _).2 _ hexecute
  have htells := Client.execute_tells hexecute
  have hceiling : x.HasRetries ↔ claim.attempt.retryCount <
      u.policy.ceiling claim.subscription.retrySchedule := by
    rw [Execution.HasRetries, Execution.ceiling, hunit, hxclaim]
  rw [hxclaim] at hrow
  refine ⟨x.response, hanswers, ?_, Client.error_iff_occurs htells,
    Client.received_of_tells htells, row, ?_, hshows.responseId, hshows.succeeded, ?_, ?_⟩
  · rw [hstore, hresponses, hbefore]
  · rw [hstore, hrow]
  · rw [hshows.retried, Response.isRetryable_iff, hceiling]
  · rw [hshows.failed, ← hshows.retried, Bool.not_eq_true]

namespace Sample

/-- A receiver that is overloaded, and breaks off after more than is kept of its answer. -/
def overloaded : Reply :=
  ⟨503, [], 1000, none, [.data [0x62, 0x75], .delay 500, .data [0x73, 0x79, 0x21], .fault .timeout]⟩

/-- An attempt is due, and its target is found. -/
def due : World :=
  { world.runAll begin with
    network := ⟨.asciiOnly, fun _ _ => .ok ["93.184.216.34"], [overloaded], [], []⟩ }

/-- A unit that keeps four bytes of an answer and need not reap yet. -/
def brief : WorkerUnit :=
  ⟨{ WorkerSettings.default with maxBodyBytes := 4 }, .default, 0, some (.utc 1)⟩

theorem settles_due : ∃ claim start, brief.Settles due claim start ∧
    start.network.nextReply = overloaded ∧
    (start.network.checkTarget (!brief.settings.disableTargetCheck)
      claim.subscription.target.url).1 = .allowed ∧
    claim.attempt.retryCount < brief.policy.ceiling claim.subscription.retrySchedule := by
  have hturn : (Engine.claimNext brief.claimant due.clock due).1.toOption.join.any (fun claim =>
      let v := (Engine.claimNext brief.claimant due.clock due).2
      let start := { v with log := v.log.bind (Log.attemptFields claim.attempt) }
      decide ((brief.process claim start).1.toOption = some true) &&
        decide (start.network.nextReply = overloaded) &&
        decide ((start.network.checkTarget (!brief.settings.disableTargetCheck)
          claim.subscription.target.url).1 = .allowed) &&
        decide (claim.attempt.retryCount <
          brief.policy.ceiling claim.subscription.retrySchedule)) = true := by decide +kernel
  have hreap : brief.reapIfDue due.clock due = (.ok brief, due) := rfl
  cases hclaim : Engine.claimNext brief.claimant due.clock due with
  | mk result v =>
    rw [hclaim] at hturn
    rcases result with e | _ | claim
    · cases hturn
    · cases hturn
    · change (_ && _ && _ && _) = true at hturn
      simp only [Bool.and_eq_true, decide_eq_true_eq] at hturn
      obtain ⟨⟨⟨hrecorded, hreply⟩, hallowed⟩, hcount⟩ := hturn
      refine ⟨claim, _, ⟨brief, due, v, hreap, hclaim, rfl, ?_⟩, hreply, hallowed, hcount⟩
      cases hr : (brief.process claim
          { v with log := v.log.bind (Log.attemptFields claim.attempt) }).1 with
      | error e =>
        rw [hr] at hrecorded
        cases hrecorded
      | ok recorded =>
        rw [hr] at hrecorded
        cases hrecorded
        rfl

theorem overloaded_arrives :
    overloaded.Arrives brief.settings.bodyLimit brief.settings.allowance
      [0x62, 0x75, 0x73, 0x79] :=
  Reply.arrives_iff.1 (by decide +kernel)

end Sample

open Sample in
/-- The answer is cut to what is kept of it, and the attempt is free to be claimed again. -/
theorem overloaded_receiver_is_tried_again :
    (Store.create true).Strays due.store ∧ ∃ claim start, brief.Settles due claim start ∧
      ∃ r : Response, r.error = some .http ∧ r.httpCode = some 503 ∧
        r.toRow ∈ (brief.runOnce due).2.2.store.tables.responses ∧
        ∃ row ∈ (brief.runOnce due).2.2.store.tables.attempts, row.isFree = true ∧
          row.responseId = some r.responseId := by
  have hreached : (Store.create true).Strays due.store :=
    Store.Leads.strays (Store.leads_runAll world begin)
  obtain ⟨claim, start, hsettles, hreply, hallowed, hcount⟩ := settles_due
  obtain ⟨r, -, hresponses, herror, htells, row, hrow, hid, -, hfree, -⟩ :=
    executions_have_one_outcome hreached hsettles
  have hhttp : r.error = some .http := by
    rw [herror]
    refine ⟨hallowed, ?_, ?_⟩
    · rw [hreply]
      exact ⟨_, overloaded_arrives⟩
    · rw [hreply]
      decide
  have hcode : r.httpCode = some 503 := by
    rcases htells with ⟨-, body, -, htells⟩ | ⟨-, hne, -⟩
    · rw [htells.httpCode, hreply]
      rfl
    · exact absurd hhttp hne
  refine ⟨hreached, claim, start, hsettles, r, hhttp, hcode, ?_, row, ?_, ?_, hid⟩
  · rw [hresponses]
    exact List.mem_append_right _ List.mem_cons_self
  · exact List.mem_of_find?_eq_some hrow
  · exact hfree.2 ⟨.inr (.inr ⟨hhttp, 503, hcode, .inl (by decide)⟩), hcount⟩

end WebhookDelivery
