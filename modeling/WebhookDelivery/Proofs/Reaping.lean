import WebhookDelivery.Proofs.Durations
import WebhookDelivery.Proofs.Replays
import WebhookDelivery.Proofs.RetryBounds

/-!
# WebhookDelivery.Proofs.Reaping

What becomes of claims that are held for longer than an execution may take.

* `Tables.timeOut`, `Timeout.released`: the tables after timeouts, in which each claim has ended and
  has a response.
* `Tables.ListsAbandoned`, `ListsAbandoned.staleClaims`: the claims before a cutoff, oldest first,
  of which the query gives the first ones.
* `Engine.finalize_timeOut`, `World.Awaits`: a claim that is held is timed out as the policy
  decides, and leaves the others to be timed out in turn. `reapAll_ok` is the run over a batch.
* `reap_ok`, `reap_error`, `reapTimes_ok`: a call releases a batch or nothing, and enough calls
  release all abandoned claims.
* `abandoned_claims_are_released`: the result about all stores to which requests, changes of rows
  and insertions of attempts lead.
-/

namespace WebhookDelivery

/-! ## Timeouts -/

/-- What is recorded of a claim that was held too long. -/
def Failure.timedOut : Failure := ⟨.timeout, none⟩

/-- What becomes of an attempt after a failure. -/
def RetryDecision.outcome (now : Int) : RetryDecision → Outcome
  | .retryAt time _ => .retried time.micros
  | .giveUp _ => .failed now

/-- The row of a claim that was held too long, the identifier of the response that is recorded for
it and the decision of the retry policy. -/
structure Timeout where
  row : AttemptRow
  responseId : Uuid
  decision : RetryDecision

namespace Timeout

def response (now : Int) (x : Timeout) : Response where
  responseId := x.responseId
  attemptId := x.row.attemptId
  applicationId := x.row.applicationId
  error := some .timeout
  httpCode := none
  headers := none
  body := none
  elapsedMs := WorkerUnit.millisBetween (x.row.pickedAt.getD now) now
  createdAt := .utc now

/-- The row when the claim has ended. -/
def released (now : Int) (x : Timeout) : AttemptRow :=
  (x.decision.outcome now).apply x.responseId x.row

/-- What timeouts make of a row: one that is among them is released, any other stays as it is. -/
def settle (now : Int) (timeouts : List Timeout) (r : AttemptRow) : AttemptRow :=
  match timeouts.find? (·.row == r) with
  | some x => x.released now
  | none => r

end Timeout

namespace Tables

/-- The tables after timeouts: the claims are released, and each has a response. -/
def timeOut (t : Tables) (now : Int) (timeouts : List Timeout) : Tables :=
  { t with
    attempts := t.attempts.map (Timeout.settle now timeouts)
    responses := t.responses ++ timeouts.map (·.response now) }

/-- The schedule of the subscription of an attempt. -/
def scheduleOf (t : Tables) (r : AttemptRow) : Option RetrySchedule :=
  (t.subscription? r.subscriptionId).bind (·.retrySchedule)

/-- An attempt that was picked before a time and has not ended. -/
structure IsAbandoned (t : Tables) (cutoff : Int) (r : AttemptRow) : Prop where
  stored : r ∈ t.attempts
  isOpen : r.isOpen = true
  picked : ∃ time, r.pickedAt = some time ∧ time < cutoff

/-- The abandoned claims, of which no two were picked at the same time, oldest first. -/
structure ListsAbandoned (t : Tables) (cutoff : Int) (rows : List AttemptRow) : Prop where
  mem_iff : ∀ r, r ∈ rows ↔ t.IsAbandoned cutoff r
  oldestFirst : rows.Pairwise fun a b => ∃ s ∈ a.pickedAt, ∃ t ∈ b.pickedAt, s < t

/-- Claims that can be handed out: their rows can be read, with what they deliver. -/
def CanHandOut (t : Tables) (rows : List AttemptRow) : Prop :=
  ∀ r ∈ rows, r.IsReadable ∧ t.Supplies r.eventId r.subscriptionId

end Tables

/-- What a policy decides about timeouts in turn, from draws to those that are left. -/
inductive RetrySettings.Decides (s : RetrySettings) (schedule : AttemptRow → Option RetrySchedule)
    (now : Int) : Draws → List Timeout → Draws → Prop
  | nil (draws : Draws) : s.Decides schedule now draws [] draws
  | cons {draws next last : Draws} {x : Timeout} {rest : List Timeout}
      (first : s.decide draws (schedule x.row) x.row.retryCount .timedOut (.utc now) =
        (.ok x.decision, next))
      (others : s.Decides schedule now next rest last) :
      s.Decides schedule now draws (x :: rest) last

/-- Timeouts as a unit goes about them: the identifiers of their responses are those that are drawn
next, and are new, and the policy comes to the decisions, as no time of a retry is out of range. -/
structure WorkerUnit.CanTimeOut (u : WorkerUnit) (w : World) (now : Int) (timeouts : List Timeout)
    (last : Draws) : Prop where
  responseIds : timeouts.map (·.responseId) = w.ids.upcoming .response timeouts.length
  distinct : (timeouts.map (·.responseId)).Nodup
  fresh : ∀ x ∈ timeouts, w.store.tables.response? x.responseId = none
  decides : u.policy.Decides w.store.tables.scheduleOf now w.draws timeouts last

/-! ## One claim -/

namespace Timeout

variable {now : Int} {x : Timeout} {rest : List Timeout} {r : AttemptRow}

theorem settle_nil : settle now [] r = r := rfl

theorem settle_of_ne (h : x.row ≠ r) : settle now (x :: rest) r = settle now rest r := by
  rw [settle, List.find?_cons_of_neg (by simpa using h)]
  rfl

theorem settle_self : settle now (x :: rest) x.row = x.released now := by
  rw [settle, List.find?_cons_of_pos (by simp)]

theorem settle_of_not_mem {timeouts : List Timeout} (h : ∀ x ∈ timeouts, x.row ≠ r) :
    settle now timeouts r = r := by
  have hnone : timeouts.find? (·.row == r) = none := by simpa using h
  rw [settle, hnone]

theorem released_frame : (x.released now).attemptId = x.row.attemptId ∧
    (x.released now).responseId = some x.responseId := by
  unfold released RetryDecision.outcome
  cases x.decision <;> exact ⟨rfl, rfl⟩

theorem released_of_retry (x : Timeout) (now : Int) {time : Int}
    (h : RetryDecision.time? (some x.decision) = some time) :
    ((x.released now).pickedAt, (x.released now).retryCount, (x.released now).delayUntil) =
      (none, x.row.retryCount + 1, some time) := by
  unfold released
  cases hx : x.decision with
  | giveUp why =>
    rw [hx] at h
    cases h
  | retryAt at_ delay =>
    rw [hx] at h
    cases h
    rfl

/-- A claim that has ended is not held any more. -/
theorem released_not_held :
    ¬ ((x.released now).isOpen = true ∧ (x.released now).pickedAt.isSome) := by
  unfold released RetryDecision.outcome
  cases x.decision <;> simp [Outcome.apply, AttemptRow.isOpen]

theorem attemptId_settle {timeouts : List Timeout} :
    (settle now timeouts r).attemptId = r.attemptId := by
  unfold settle
  split
  · rename_i x hx
    rw [released_frame.1, show x.row = r by simpa using List.find?_some hx]
  · rfl

def token (x : Timeout) : ClaimToken :=
  ⟨x.row.attemptId, x.row.pickedAt.getD 0, x.row.workerName⟩

theorem toRow_response : (x.response now).toRow = x.response now := by
  rw [Response.toRow, response, ClockTime.micros_utc]

theorem outcomeOf_response : Engine.outcomeOf (x.response now) now
    (RetryDecision.time? (some x.decision)) = x.decision.outcome now := by
  unfold RetryDecision.outcome
  cases x.decision <;> rfl

end Timeout

namespace Tables

variable {t : Tables} {now : Int} {x : Timeout} {rest : List Timeout}

/-- The row is held by a claim. -/
structure Holding (t : Tables) (r : AttemptRow) : Prop where
  stored : r ∈ t.attempts
  isOpen : r.isOpen = true
  picked : r.pickedAt.isSome = true

theorem IsAbandoned.holding {cutoff : Int} {r : AttemptRow} (h : t.IsAbandoned cutoff r) :
    t.Holding r := by
  obtain ⟨time, hpicked, -⟩ := h.picked
  exact ⟨h.stored, h.isOpen, by rw [hpicked]; rfl⟩

/-- Attempts have identifiers of their own, so only one row is held under a claim. -/
theorem Holding.holds_iff (hi : t.Indexed) (h : t.Holding x.row) {r : AttemptRow}
    (hr : r ∈ t.attempts) : x.token.holds r = true ↔ r = x.row := by
  obtain ⟨time, hpicked⟩ := Option.isSome_iff_exists.mp h.picked
  rw [ClaimToken.holds_iff, Timeout.token, hpicked]
  constructor
  · rintro ⟨hid, -⟩
    exact List.inj_on_of_nodup_map hi.attemptIds hr h.stored hid
  · rintro rfl
    exact ⟨rfl, hpicked, rfl, h.isOpen⟩

theorem timeOut_nil : t.timeOut now [] = t := by
  have hsame : (Timeout.settle now [] : AttemptRow → AttemptRow) = id := rfl
  simp [timeOut, hsame]

theorem response?_timeOut {id : Uuid} (h : t.response? id = none) {timeouts : List Timeout}
    (hne : ∀ x ∈ timeouts, x.responseId ≠ id) : (t.timeOut now timeouts).response? id = none := by
  have hbefore : t.responses.find? (·.responseId == id) = none := h
  rw [response?, timeOut, List.find?_append, hbefore]
  simpa [Timeout.response] using hne

/-- Timeouts of different attempts are recorded one after the other. -/
theorem timeOut_cons (h : ∀ y ∈ rest, y.row.attemptId ≠ x.row.attemptId) :
    t.timeOut now (x :: rest) = (t.timeOut now [x]).timeOut now rest := by
  have hrows : ∀ r, Timeout.settle now (x :: rest) r =
      Timeout.settle now rest (Timeout.settle now [x] r) := by
    intro r
    by_cases hr : x.row = r
    · subst hr
      rw [Timeout.settle_self, Timeout.settle_self, Timeout.settle_of_not_mem]
      intro y hy hsame
      refine h y hy ?_
      rw [hsame, Timeout.released_frame.1]
    · rw [Timeout.settle_of_ne hr, Timeout.settle_of_ne hr, Timeout.settle_nil]
  simp [timeOut, Function.comp_def, hrows]

theorem release_timeOut (hi : t.Indexed) (h : t.Holding x.row) :
    t.release x.token.attemptId x.token.pickedAt x.token.worker (x.decision.outcome now)
      x.responseId =
        (true, { t with attempts := t.attempts.map (Timeout.settle now [x]) }) := by
  have hheld : t.attempts.any x.token.holds = true :=
    List.any_eq_true.mpr ⟨x.row, h.stored, (h.holds_iff hi h.stored).mpr rfl⟩
  have hrows : updateRows x.token.holds ((x.decision.outcome now).apply x.responseId) t.attempts =
      t.attempts.map (Timeout.settle now [x]) := by
    refine List.map_congr_left fun r hr => ?_
    by_cases hsame : r = x.row
    · rw [if_pos ((h.holds_iff hi hr).mpr hsame), hsame, Timeout.settle_self]
      rfl
    · rw [if_neg (mt (h.holds_iff hi hr).mp hsame), Timeout.settle_of_ne (Ne.symm hsame),
        Timeout.settle_nil]
  exact Prod.ext hheld (congrArg (fun rows => { t with attempts := rows }) hrows)

/-- A response is recorded if its identifier is new and its attempt is there. -/
theorem insertResponse_of_new {r : Response} (new : t.response? r.responseId = none)
    (there : ∃ a ∈ t.attempts, a.attemptId = r.attemptId) :
    t.insertResponse r = .ok { t with responses := t.responses ++ [r.toRow] } := by
  obtain ⟨a, ha, hid⟩ := there
  have hattempt : (t.attempt? r.attemptId).isNone = false := by
    rw [Option.isNone_eq_false_iff, attempt?, List.find?_isSome]
    exact ⟨a, ha, beq_iff_eq.mpr hid⟩
  unfold insertResponse
  rw [new, hattempt]
  simp

theorem insertResponse_timeOut (h : x.row ∈ t.attempts) (fresh : t.response? x.responseId = none) :
    insertResponse { t with attempts := t.attempts.map (Timeout.settle now [x]) } (x.response now) =
      .ok (t.timeOut now [x]) := by
  have hinsert := insertResponse_of_new
    (t := { t with attempts := t.attempts.map (Timeout.settle now [x]) }) (r := x.response now)
    fresh ⟨_, List.mem_map_of_mem h, Timeout.attemptId_settle⟩
  rwa [Timeout.toRow_response] at hinsert

theorem finish?_timeOut (hi : t.Indexed) (h : t.Holding x.row)
    (fresh : t.response? x.responseId = none) :
    t.finish? ⟨x.token, x.decision.outcome now, x.response now⟩ = .ok (t.timeOut now [x]) := by
  unfold finish?
  dsimp only
  rw [show (x.response now).responseId = x.responseId from rfl, release_timeOut hi h]
  exact insertResponse_timeOut h.stored fresh

theorem mem_dangling {p : Uuid × Uuid} : p ∈ t.dangling ↔ ∃ r ∈ t.attempts, r.attemptId = p.1 ∧
    r.responseId = some p.2 ∧ t.response? p.2 = none := by
  rw [dangling, List.mem_filterMap]
  refine exists_congr fun r => and_congr_right fun _ => ?_
  cases hid : r.responseId with
  | none => simp
  | some id =>
    cases hresponse : t.response? id with
    | none =>
      simp only [hresponse, Option.isSome_none, Bool.false_eq_true, if_false, Option.some.injEq]
      constructor
      · rintro rfl
        exact ⟨rfl, rfl, hresponse⟩
      · rintro ⟨hattempt, rfl, -⟩
        rw [hattempt]
    | some y =>
      simp only [hresponse, Option.isSome_some, if_true]
      constructor
      · intro h
        cases h
      · rintro ⟨-, hsame, hnone⟩
        rw [← Option.some.inj hsame, hresponse] at hnone
        cases hnone

/-- A claim that has ended has its response. -/
theorem keepsReferences_timeOut : keepsReferences t (t.timeOut now [x]) = true := by
  have hresponses : ∀ id, (t.timeOut now [x]).response? id = none →
      t.response? id = none ∧ id ≠ x.responseId := by
    intro id h
    rw [response?, timeOut, List.find?_append, Option.or_eq_none_iff] at h
    refine ⟨h.1, ?_⟩
    rintro rfl
    simp [Timeout.response] at h
  rw [keepsReferences, Bool.or_eq_true, List.all_eq_true]
  refine .inr fun p hp => List.contains_iff_mem.mpr ?_
  obtain ⟨r', hr', hattempt, hresponse, hnone⟩ := mem_dangling.mp hp
  obtain ⟨hbefore, hne⟩ := hresponses _ hnone
  obtain ⟨r, hr, rfl⟩ := List.mem_map.mp hr'
  by_cases hsame : x.row = r
  · rw [← hsame, Timeout.settle_self, Timeout.released_frame.2, Option.some.injEq] at hresponse
    exact absurd hresponse.symm hne
  · rw [Timeout.settle_of_ne hsame, Timeout.settle_nil] at hattempt hresponse
    exact mem_dangling.mpr ⟨r, hr, hattempt, hresponse, hbefore⟩

end Tables

/-! ## Recording a timeout -/

namespace Engine

variable {now : Int} {x : Timeout} {w : World}

theorem insertResponse_apply {r : Response} {t : Tables} (hl : w.store.tables.lost = [])
    (hcode : r.httpCode = none) (fits : Fits r.elapsedMs)
    (h : w.store.tables.insertResponse r = .ok t) :
    insertResponse r w = (.ok (), { w with store := { w.store with tables := t } }) := by
  have hstatement : statement (fun t => (t.insertResponse r).map fun t => ((), t)) w =
      (.ok (), { w with store := { w.store with tables := t } }) := by
    rw [statement_apply, h]
    rfl
  unfold insertResponse
  rw [bind_apply, touch_apply hl, hcode]
  change (checkInteger r.elapsedMs >>= fun _ => statement _) w = _
  rw [bind_apply, checkInteger_apply fits]
  exact hstatement

/-- The outcome of a claim that is held is recorded. -/
theorem finalize_timeOut (ho : w.store.IsIdle) (hi : w.store.tables.Indexed)
    (h : w.store.tables.Holding x.row) (fresh : w.store.tables.response? x.responseId = none)
    (fits : Fits (x.response now).elapsedMs) :
    finalize x.row.record (x.response now) now (RetryDecision.time? (some x.decision)) w =
      (.ok true, { w with store := { w.store with
        tables := w.store.tables.timeOut now [x] } }) := by
  obtain ⟨time, hpicked⟩ := Option.isSome_iff_exists.mp h.picked
  have hrecord : x.row.record.pickedAt = some (.utc time) := by
    rw [AttemptRow.record, hpicked]
    rfl
  have hrelease : w.store.tables.release x.row.record.attemptId (ClockTime.utc time).micros
      x.row.record.workerName (x.decision.outcome now) (x.response now).responseId =
        (true, { w.store.tables with
          attempts := w.store.tables.attempts.map (Timeout.settle now [x]) }) := by
    rw [← Tables.release_timeOut hi h, ClockTime.micros_utc, Timeout.token, hpicked]
    rfl
  unfold finalize
  rw [hrecord]
  dsimp only
  rw [Timeout.outcomeOf_response]
  rw [atomically_apply ho.isOpen ho.inTransaction (x := true) (v := { w with store := { w.store with
    tables := w.store.tables.timeOut now [x], inTransaction := true } }) ?_
    Tables.keepsReferences_timeOut]
  · rw [← ho.inTransaction]
  · rw [bind_apply, touch_apply (by exact hi.lost)]
    dsimp only
    rw [bind_apply, change_apply]
    dsimp only
    rw [hrelease, if_pos rfl, bind_apply, insertResponse_apply (by exact hi.lost) rfl fits
      (Tables.insertResponse_timeOut h.stored fresh)]
    rfl

end Engine

/-! ## A batch -/

/-- What the timeouts that are left rely on. -/
structure World.Awaits (now : Int) (timeouts : List Timeout) (w : World) : Prop where
  idle : w.store.IsIdle
  indexed : w.store.tables.Indexed
  holding : ∀ x ∈ timeouts, w.store.tables.Holding x.row
  apart : (timeouts.map (·.row.attemptId)).Nodup
  responseIds : timeouts.map (·.responseId) = w.ids.upcoming .response timeouts.length
  distinct : (timeouts.map (·.responseId)).Nodup
  fresh : ∀ x ∈ timeouts, w.store.tables.response? x.responseId = none
  fits : ∀ x ∈ timeouts, Engine.Fits (x.response now).elapsedMs

/-- Those that follow a timeout rely on the same when it is recorded. -/
theorem World.Awaits.next {now : Int} {x : Timeout} {rest : List Timeout} {w v : World}
    (h : w.Awaits now (x :: rest))
    (hs : v.store = { w.store with tables := w.store.tables.timeOut now [x] })
    (hi : v.ids = w.ids.advance .response) : v.Awaits now rest := by
  obtain ⟨idle, indexed, holding, apart, responseIds, distinct, fresh, fits⟩ := h
  rw [List.forall_mem_cons] at holding fresh fits
  rw [List.map_cons, List.nodup_cons] at apart distinct
  rw [List.map_cons, List.length_cons, IdSupply.upcoming, List.cons.injEq] at responseIds
  have hfinish : w.store.tables.finish? _ = .ok (w.store.tables.timeOut now [x]) :=
    Tables.finish?_timeOut indexed holding.1 fresh.1
  refine ⟨hs ▸ ⟨idle.isOpen, idle.inTransaction⟩, hs ▸ indexed.finish hfinish, fun y hy => ?_,
    apart.2, hi ▸ responseIds.2, distinct.2, fun y hy => ?_, fits.2⟩
  · have hne : x.row ≠ y.row := fun hsame =>
      apart.1 (List.mem_map.mpr ⟨y, hy, congrArg AttemptRow.attemptId hsame.symm⟩)
    obtain ⟨hstored, hopen, hpicked⟩ := holding.2 y hy
    refine ⟨?_, hopen, hpicked⟩
    rw [hs]
    exact List.mem_map.mpr ⟨y.row, hstored, Timeout.settle_of_ne hne⟩
  · rw [hs]
    refine Tables.response?_timeOut (fresh.2 y hy) fun z hz hsame => ?_
    rw [List.mem_singleton.mp hz] at hsame
    exact distinct.1 (List.mem_map.mpr ⟨y, hy, hsame.symm⟩)

namespace WorkerUnit

open Engine

variable {u : WorkerUnit} {now : Int} {x : Timeout} {w : World}

theorem abandonedResponse_apply (h : w.ids.next .response = x.responseId) :
    abandonedResponse x.row.record now w =
      (.ok (x.response now), { w with ids := w.ids.advance .response }) := by
  have hpicked : x.row.record.pickedAt.map ClockTime.micros = x.row.pickedAt := by
    rw [AttemptRow.record, Option.map_map]
    cases x.row.pickedAt with
    | none => rfl
    | some time => exact congrArg some (ClockTime.micros_utc time)
  have hdraw : drawId .response w =
      (.ok x.responseId, { w with ids := w.ids.advance .response }) := by rw [← h]; rfl
  rw [abandonedResponse, bind_apply, hdraw]
  dsimp only
  rw [hpicked]
  rfl

/-- A claim, and what is given for it when it is timed out. -/
structure Pairs (schedule : AttemptRow → Option RetrySchedule) (claim : Claim) (x : Timeout) :
    Prop where
  attempt : claim.attempt = x.row.record
  schedule : claim.subscription.retrySchedule = schedule x.row

theorem finalize_apply {schedule : AttemptRow → Option RetrySchedule} {claim : Claim} {next : Draws}
    (hp : Pairs schedule claim x) (ho : w.store.IsIdle) (hi : w.store.tables.Indexed)
    (h : w.store.tables.Holding x.row) (fresh : w.store.tables.response? x.responseId = none)
    (fits : Fits (x.response now).elapsedMs)
    (hd : u.policy.decide w.draws (schedule x.row) x.row.retryCount .timedOut (.utc now) =
      (.ok x.decision, next)) :
    ∃ log, u.finalize claim (x.response now) now w = (.ok true, { w with
      draws := next
      log := log
      store := { w.store with tables := w.store.tables.timeOut now [x] } }) := by
  rw [← hp.schedule, show x.row.retryCount = claim.attempt.retryCount by rw [hp.attempt]; rfl] at hd
  have hrecord := finalize_timeOut (w := { w with draws := next }) ho hi h fresh fits
  have hfailure : (x.response now).failure? = some .timedOut := rfl
  rw [finalize_eq, bind_apply, decide_apply hfailure hd]
  change ∃ log, (Engine.finalize claim.attempt (x.response now) now
    (RetryDecision.time? (some x.decision)) >>= report (x.response now) (some x.decision))
      { w with draws := next } = _
  rw [hp.attempt, bind_apply, hrecord]
  cases x.decision <;> exact ⟨_, rfl⟩

theorem reapAll_cons {schedule : AttemptRow → Option RetrySchedule} {claim : Claim}
    (claims : List Claim) {rest : List Timeout} {next : Draws} (h : w.Awaits now (x :: rest))
    (hp : Pairs schedule claim x)
    (hd : u.policy.decide w.draws (schedule x.row) x.row.retryCount .timedOut (.utc now) =
      (.ok x.decision, next)) :
    ∃ v, u.reapAll now (claim :: claims) w = ((1 + ·) <$> u.reapAll now claims) v ∧
      v.store = { w.store with tables := w.store.tables.timeOut now [x] } ∧
      v.ids = w.ids.advance .response ∧ v.draws = next := by
  have hid : w.ids.next .response = x.responseId := by
    have hids := h.responseIds
    rw [List.map_cons, List.length_cons, IdSupply.upcoming, List.cons.injEq] at hids
    exact hids.1.symm
  obtain ⟨log, hfinalize⟩ := finalize_apply (u := u) (w := { w with
      ids := w.ids.advance .response
      log := w.log.bind (Log.attemptFields claim.attempt) }) hp h.idle h.indexed
    (h.holding x List.mem_cons_self) (h.fresh x List.mem_cons_self) (h.fits x List.mem_cons_self) hd
  have hbody : ∃ log', withFields (Log.attemptFields claim.attempt) (do
      let reaped ← u.finalize claim (x.response now) now
      if reaped then
        Engine.log .warning logger "Reaped stale claim"
          [("previous_worker", .ofString? claim.attempt.workerName)]
      return reaped) { w with ids := w.ids.advance .response } = (.ok true, { w with
        ids := w.ids.advance .response
        draws := next
        log := log'
        store := { w.store with tables := w.store.tables.timeOut now [x] } }) := by
    unfold withFields
    dsimp only
    rw [bind_apply, hfinalize]
    exact ⟨_, rfl⟩
  obtain ⟨log', hbody⟩ := hbody
  have hresponse : abandonedResponse x.row.record now w = _ := abandonedResponse_apply hid
  rw [← hp.attempt] at hresponse
  refine ⟨{ w with
    ids := w.ids.advance .response
    draws := next
    log := log'
    store := { w.store with tables := w.store.tables.timeOut now [x] } }, ?_, rfl, rfl, rfl⟩
  rw [reapAll, bind_apply, hresponse]
  dsimp only
  rw [bind_apply, hbody, map_eq_pure_bind]
  rfl

/-- Claims that are held are timed out in turn, all of them. -/
theorem reapAll_ok {schedule : AttemptRow → Option RetrySchedule} {claims : List Claim}
    {timeouts : List Timeout} {last : Draws} (h : w.Awaits now timeouts)
    (pairs : List.Forall₂ (Pairs schedule) claims timeouts)
    (decides : u.policy.Decides schedule now w.draws timeouts last) :
    ∃ v, u.reapAll now claims w = (.ok timeouts.length, v) ∧
      v.store = { w.store with tables := w.store.tables.timeOut now timeouts } ∧
      v.draws = last ∧ ∀ n, w.ids.upcoming .response (timeouts.length + n) =
        timeouts.map (·.responseId) ++ v.ids.upcoming .response n := by
  induction pairs generalizing w with
  | nil =>
    cases decides
    exact ⟨w, rfl, by rw [Tables.timeOut_nil], rfl, fun n => by simp⟩
  | @cons claim x claims rest hp _ ih =>
    cases decides with
    | @cons _ next _ _ _ first others =>
      obtain ⟨v, hstep, hstore, hids, hdraws⟩ := reapAll_cons claims h hp first
      obtain ⟨v', hrun, hlast, hleft, hupcoming⟩ := ih (h.next hstore hids) (hdraws ▸ others)
      refine ⟨v', ?_, ?_, hleft, fun n => ?_⟩
      · rw [hstep, map_apply, hrun, List.length_cons, Nat.add_comm]
      · have hapart : ∀ y ∈ rest, y.row.attemptId ≠ x.row.attemptId := by
          have hnodup := h.apart
          rw [List.map_cons, List.nodup_cons] at hnodup
          exact fun y hy hsame => hnodup.1 (List.mem_map.mpr ⟨y, hy, hsame⟩)
        rw [hlast, hstore, Tables.timeOut_cons hapart]
      · have hids' := h.responseIds
        rw [List.map_cons, List.length_cons, IdSupply.upcoming, List.cons.injEq] at hids'
        rw [List.length_cons, Nat.add_right_comm, IdSupply.upcoming, List.map_cons,
          List.cons_append, ← hids'.1, ← hupcoming n, hids]

end WorkerUnit

/-! ## Abandoned claims -/

namespace Tables

variable {t : Tables} {cutoff : Int} {rows batch rest : List AttemptRow}

theorem ListsAbandoned.nodup (h : t.ListsAbandoned cutoff rows) : rows.Nodup := by
  refine h.oldestFirst.imp ?_
  rintro a _ ⟨time, ha, _, hb, hlt⟩ rfl
  rw [Option.mem_def.mp ha] at hb
  exact absurd hlt (Option.some.inj hb ▸ Int.lt_irrefl _)

theorem ListsAbandoned.nodup_attemptIds (hi : t.Indexed) (h : t.ListsAbandoned cutoff rows) :
    (rows.map (·.attemptId)).Nodup :=
  h.nodup.map_on fun r hr s hs => List.inj_on_of_nodup_map hi.attemptIds
    ((h.mem_iff r).mp hr).stored ((h.mem_iff s).mp hs).stored

/-- The query for abandoned claims gives the oldest of them. -/
theorem ListsAbandoned.staleClaims (hi : t.Indexed) (h : t.ListsAbandoned cutoff rows)
    (limit : Int) : t.staleClaims cutoff limit = limited limit rows := by
  have hmem : ∀ r, r ∈ t.attempts.filter (fun r => r.isOpen && r.pickedAt.any (· < cutoff)) ↔
      r ∈ rows := by
    intro r
    rw [h.mem_iff, List.mem_filter, Bool.and_eq_true, Option.any_eq_true]
    constructor
    · rintro ⟨hstored, hopen, time, hpicked, hlt⟩
      exact ⟨hstored, hopen, time, hpicked, by simpa using hlt⟩
    · rintro ⟨hstored, hopen, time, hpicked, hlt⟩
      exact ⟨hstored, hopen, time, hpicked, by simpa using hlt⟩
  have hperm : (t.attempts.filter fun r => r.isOpen && r.pickedAt.any (· < cutoff)).Perm rows :=
    (List.perm_ext_iff_of_nodup (hi.attemptIds.of_map.filter _) h.nodup).mpr hmem
  have hlt : rows.Pairwise fun a b => a.pickedAt.getD 0 < b.pickedAt.getD 0 := by
    refine h.oldestFirst.imp ?_
    rintro a b ⟨s, hs, t, ht, hlt⟩
    rwa [Option.mem_def.mp hs, Option.mem_def.mp ht]
  have hkeys : (rows.map fun r => r.pickedAt.getD 0).Nodup :=
    List.pairwise_map.mpr (hlt.imp fun h => Int.ne_of_lt h)
  have hsorted : (t.attempts.filter fun r => r.isOpen && r.pickedAt.any (· < cutoff)).mergeSort
      (fun a b => a.pickedAt.getD 0 ≤ b.pickedAt.getD 0) = rows := by
    have hsort := (List.mergeSort_perm (t.attempts.filter fun r =>
      r.isOpen && r.pickedAt.any (· < cutoff)) fun a b => a.pickedAt.getD 0 ≤ b.pickedAt.getD 0)
    have hrows : rows.Pairwise fun a b =>
        decide (a.pickedAt.getD 0 ≤ b.pickedAt.getD 0) = true :=
      hlt.imp fun h => decide_eq_true (Int.le_of_lt h)
    refine List.Perm.eq_of_pairwise ?_ (List.pairwise_mergeSort ?_ ?_ _) hrows (hsort.trans hperm)
    · intro a b ha hb hab hba
      have ha := hperm.mem_iff.mp (hsort.mem_iff.mp ha)
      exact List.inj_on_of_nodup_map hkeys ha hb
        (Int.le_antisymm (of_decide_eq_true hab) (of_decide_eq_true hba))
    · intro a b c hab hbc
      simp only [decide_eq_true_eq] at hab hbc ⊢
      exact Int.le_trans hab hbc
    · intro a b
      simp only [Bool.or_eq_true, decide_eq_true_eq]
      exact Int.le_total _ _
  rw [Tables.staleClaims, hsorted]

/-- When the oldest of them have ended, the others are left. -/
theorem ListsAbandoned.timeOut (h : t.ListsAbandoned cutoff (batch ++ rest)) {now : Int}
    {timeouts : List Timeout} (hrows : timeouts.map (·.row) = batch) :
    (t.timeOut now timeouts).ListsAbandoned cutoff rest := by
  have hnodup := List.nodup_append.mp h.nodup
  have hsettle : ∀ r, r ∉ batch → Timeout.settle now timeouts r = r := by
    intro r hr
    refine Timeout.settle_of_not_mem fun x hx hsame => hr ?_
    rw [← hrows, ← hsame]
    exact List.mem_map_of_mem hx
  refine ⟨fun r => ⟨fun hr => ?_, ?_⟩, (List.pairwise_append.mp h.oldestFirst).2.1⟩
  · obtain ⟨hstored, hopen, hpicked⟩ := (h.mem_iff r).mp (List.mem_append_right _ hr)
    refine ⟨List.mem_map.mpr ⟨r, hstored, hsettle r fun hbatch => ?_⟩, hopen, hpicked⟩
    exact hnodup.2.2 r hbatch r hr rfl
  · rintro ⟨hstored, hopen, hpicked⟩
    obtain ⟨old, hold, rfl⟩ := List.mem_map.mp hstored
    by_cases hbatch : old ∈ batch
    · -- A claim that has ended is not abandoned any more.
      rw [← hrows] at hbatch
      obtain ⟨x, hx, hsame⟩ := List.mem_map.mp hbatch
      have hfound : (timeouts.find? (·.row == old)).isSome = true :=
        List.find?_isSome.mpr ⟨x, hx, beq_iff_eq.mpr hsame⟩
      obtain ⟨y, hy⟩ := Option.isSome_iff_exists.mp hfound
      rw [Timeout.settle, hy] at hopen hpicked
      obtain ⟨time, hpicked, -⟩ := hpicked
      exact absurd ⟨hopen, by rw [hpicked]; rfl⟩ (Timeout.released_not_held (x := y))
    · rw [hsettle old hbatch] at hopen hpicked ⊢
      exact (List.mem_append.mp ((h.mem_iff old).mpr ⟨hold, hopen, hpicked⟩)).resolve_left hbatch

theorem timeOut_append {now : Int} {first second : List Timeout}
    (h : ((first ++ second).map (·.row.attemptId)).Nodup) :
    t.timeOut now (first ++ second) = (t.timeOut now first).timeOut now second := by
  induction first generalizing t with
  | nil => rw [timeOut_nil, List.nil_append]
  | cons x first ih =>
    rw [List.cons_append, List.map_cons, List.nodup_cons] at h
    have hapart : ∀ y ∈ first ++ second, y.row.attemptId ≠ x.row.attemptId :=
      fun y hy hsame => h.1 (List.mem_map.mpr ⟨y, hy, hsame⟩)
    rw [List.cons_append, timeOut_cons hapart, ih h.2,
      timeOut_cons (t := t) fun y hy => hapart y (List.mem_append_left _ hy)]

theorem CanHandOut.timeOut (h : t.CanHandOut rows) (now : Int) (timeouts : List Timeout) :
    (t.timeOut now timeouts).CanHandOut rows :=
  fun r hr => ⟨(h r hr).1, (h r hr).2.congr rfl rfl⟩

end Tables

namespace Engine

variable {w : World} {rows : List AttemptRow}

theorem mapM_cons_of_ok {α β : Type} {f : α → Engine β} {x : α} {y : β} {rest : List α}
    {v : World} (h : f x w = (.ok y, v)) :
    (x :: rest).mapM f w = ((y :: ·) <$> rest.mapM f) v := by
  rw [mapM_cons_apply, h, map_apply]
  dsimp only
  cases rest.mapM f v with
  | mk result u => cases result <;> rfl

theorem mapM_readClaim_ok (ho : w.store.isOpen = true) (hl : w.store.tables.lost = [])
    (h : w.store.tables.CanHandOut rows) :
    ∃ claims, rows.mapM (fun r => readAttempt r >>= loadClaim) w = (.ok claims, w) ∧
      List.Forall₂ (fun (claim : Claim) r => claim.attempt = r.record ∧
        claim.subscription.retrySchedule = w.store.tables.scheduleOf r) claims rows := by
  induction rows with
  | nil => exact ⟨[], rfl, .nil⟩
  | cons r rest ih =>
    rw [Tables.CanHandOut, List.forall_mem_cons] at h
    obtain ⟨⟨hread, ⟨e, he, hcheck⟩, s, hs, hrow⟩, hrest⟩ := h
    obtain ⟨claims, hclaims, hpairs⟩ := ih hrest
    refine ⟨⟨r.record, e, s⟩ :: claims, ?_, .cons ⟨rfl, ?_⟩ hpairs⟩
    · have hclaim : (readAttempt r >>= loadClaim) w = (.ok ⟨r.record, e, s⟩, w) := by
        rw [readClaim_apply ho hl he hs, Claim.read_of_canRead ⟨hread, hcheck, hrow⟩]
        rfl
      rw [mapM_cons_of_ok (f := fun r => readAttempt r >>= loadClaim) hclaim, map_apply, hclaims]
    · rw [Tables.scheduleOf, hs]
      rfl

theorem mapM_readClaim_error (ho : w.store.isOpen = true) (hl : w.store.tables.lost = [])
    (hd : ∀ r ∈ rows, w.store.tables.Delivers r.eventId r.subscriptionId)
    (h : ¬ w.store.tables.CanHandOut rows) :
    ∃ x, rows.mapM (fun r => readAttempt r >>= loadClaim) w = (.error (.record x), w) := by
  induction rows with
  | nil => exact absurd (fun r hr => absurd hr List.not_mem_nil) h
  | cons r rest ih =>
    rw [List.forall_mem_cons] at hd
    obtain ⟨e, s, he, hs⟩ := hd.1.exists
    by_cases hread : Claim.CanRead r e s
    · have hrest : ¬ w.store.tables.CanHandOut rest := fun hrest =>
        h (List.forall_mem_cons.mpr ⟨⟨hread.attempt, ⟨e, he, hread.event⟩, s, hs,
          hread.subscription⟩, hrest⟩)
      obtain ⟨x, hx⟩ := ih hd.2 hrest
      refine ⟨x, ?_⟩
      have hclaim : (readAttempt r >>= loadClaim) w = (.ok ⟨r.record, e, s⟩, w) := by
        rw [readClaim_apply ho hl he hs, Claim.read_of_canRead hread]
        rfl
      rw [mapM_cons_of_ok (f := fun r => readAttempt r >>= loadClaim) hclaim, map_apply, hx]
    · obtain ⟨x, hx⟩ := Claim.read_of_not_canRead hread
      refine ⟨x, ?_⟩
      rw [mapM_cons_apply, readClaim_apply ho hl he hs, hx]
      rfl

/-- Stale claims are loaded in one transaction, which changes nothing. -/
theorem findStale_apply (hw : w.store.IsIdle) (hl : w.store.tables.lost = []) {before limit : Int}
    (fits : Fits limit) {result : Except OperationError (List Claim)}
    (h : (w.store.tables.staleClaims before limit).mapM (fun r => readAttempt r >>= loadClaim)
      w.begun = (result, w.begun)) :
    findStale before limit w = (result.mapError OperationError.reported, w) := by
  have hbody : (do
      touch .attempt
      checkInteger limit
      let rows := (← tables).staleClaims before limit
      rows.mapM fun row => do loadClaim (← readAttempt row)) w.begun = (result, w.begun) := by
    rw [bind_apply, touch_apply (by exact hl)]
    dsimp only
    rw [bind_apply, checkInteger_apply fits]
    exact h
  unfold findStale
  rw [atomically_begun hw.isOpen hw.inTransaction hbody]
  cases result with
  | ok claims =>
    have hkeeps := Tables.keepsReferences_self w.store.tables
    simp only [settle, World.begun, hkeeps, if_true, ← hw.inTransaction]
    rfl
  | error e =>
    simp only [settle, World.begun, ← hw.inTransaction]
    rfl

end Engine

/-! ## Reaping -/

theorem ClockTime.inRange_iff {reading : Int} :
    inRange reading ↔ earliest ≤ reading ∧ reading ≤ latest := by
  simp [inRange]

/-- No duration is as long as a thousand million days. -/
theorem ClockTime.natAbs_le_of_microsOfSeconds? {seconds : Float} {micros : Int}
    (h : microsOfSeconds? seconds = .ok micros) : micros.natAbs ≤ 1000000000 * 86400000000 := by
  unfold microsOfSeconds? at h
  split at h
  · cases h
  · split at h
    · cases h
    · dsimp only at h
      split at h
      · cases h
      · split at h
        · cases h
        · rename_i hdays
          cases h
          rw [Int.fdiv_eq_ediv_of_nonneg _ (by decide), maxDays, microsPerDay] at hdays
          omega

namespace RetrySettings.Decides

variable {s : RetrySettings} {schedule : AttemptRow → Option RetrySchedule} {now : Int}

theorem split {first second : List Timeout} {draws last : Draws}
    (h : s.Decides schedule now draws (first ++ second) last) :
    ∃ next, s.Decides schedule now draws first next ∧ s.Decides schedule now next second last := by
  induction first generalizing draws with
  | nil => exact ⟨draws, .nil draws, h⟩
  | cons x first ih =>
    rw [List.cons_append] at h
    cases h with
    | cons hx hrest =>
      obtain ⟨next, hfirst, hsecond⟩ := ih hrest
      exact ⟨next, .cons hx hfirst, hsecond⟩

end RetrySettings.Decides

/-- Those that are drawn next are the first of those that are drawn later. -/
theorem IdSupply.take_upcoming (s : IdSupply) (kind : IdKind) {m n : Nat} (h : m ≤ n) :
    (s.upcoming kind n).take m = s.upcoming kind m := by
  induction m generalizing s n with
  | zero => rfl
  | succ m ih =>
    obtain ⟨n, rfl⟩ := Nat.exists_eq_add_of_lt h
    rw [show m + n + 1 = (m + n).succ from rfl, upcoming, List.take_succ_cons,
      ih _ (Nat.le_add_right m n), upcoming]

namespace WorkerUnit

open Engine

/-- The moment before which claims count as abandoned, which the calendar has. -/
def ReapsBefore (u : WorkerUnit) (now : Int) (cutoff : ClockTime) : Prop :=
  ∃ age, ClockTime.microsOfSeconds? u.settings.staleSeconds = .ok age ∧
    (ClockTime.utc now).addMicros? (-age) = .ok cutoff

variable {u : WorkerUnit} {now : Int} {cutoff : ClockTime} {w : World}

theorem reap_eq (h : u.ReapsBefore now cutoff) :
    u.reap now = findStale cutoff.micros reapLimit >>= u.reapAll now := by
  obtain ⟨age, hage, hcutoff⟩ := h
  unfold reap
  rw [hage]
  change (ofExcept _ ((ClockTime.utc now).addMicros? (-age)) >>= fun cutoff =>
    findStale cutoff.micros reapLimit >>= u.reapAll now) = _
  rw [hcutoff]
  rfl

/-- The time that is recorded for a claim fits where it is stored. -/
theorem fits_elapsed (h : u.ReapsBefore now cutoff) {x : Timeout} (hr : x.row.IsReadable)
    (hpicked : x.row.pickedAt.isSome) : Fits (x.response now).elapsedMs := by
  obtain ⟨age, hage, hcutoff⟩ := h
  obtain ⟨time, htime⟩ := Option.isSome_iff_exists.mp hpicked
  have hlong := ClockTime.natAbs_le_of_microsOfSeconds? hage
  have hcutoff : ClockTime.inRange (now + -age) := by
    unfold ClockTime.addMicros? at hcutoff
    split at hcutoff
    · assumption
    · cases hcutoff
  have htimes := (AttemptRow.times_inRange_iff.mp hr.times).2.1
  rw [htime, Option.all_some, ClockTime.inRange_iff] at htimes
  rw [ClockTime.inRange_iff] at hcutoff
  unfold ClockTime.earliest ClockTime.latest at htimes hcutoff
  refine fits_millisBetween ?_
  rw [htime, Option.getD_some]
  omega

theorem fits_reapLimit : Fits reapLimit := ⟨by decide, by decide⟩

/-- A unit that can go about timeouts can go about the first of them, and about the others when
those are recorded. -/
theorem CanTimeOut.split {first second : List Timeout} {last : Draws}
    (h : u.CanTimeOut w now (first ++ second) last) :
    ∃ next, u.CanTimeOut w now first next ∧ ∀ v : World, v.draws = next →
      v.store.tables = w.store.tables.timeOut now first →
      (∀ n, w.ids.upcoming .response (first.length + n) =
        first.map (·.responseId) ++ v.ids.upcoming .response n) →
      u.CanTimeOut v now second last := by
  obtain ⟨responseIds, distinct, fresh, decides⟩ := h
  rw [List.map_append, List.length_append] at responseIds
  rw [List.map_append, List.nodup_append] at distinct
  rw [List.forall_mem_append] at fresh
  obtain ⟨next, hfirst, hsecond⟩ := decides.split
  refine ⟨next, ⟨?_, distinct.1, fresh.1, hfirst⟩, fun v hdraws htables hids => ?_⟩
  · have htake := congrArg (List.take first.length) responseIds
    rwa [w.ids.take_upcoming .response (Nat.le_add_right _ _),
      List.take_left' (List.length_map _)] at htake
  · rw [hids] at responseIds
    refine ⟨List.append_cancel_left responseIds, distinct.2.1, fun y hy => ?_, ?_⟩
    · rw [htables]
      refine Tables.response?_timeOut (fresh.2 y hy) fun x hx => ?_
      exact distinct.2.2 _ (List.mem_map_of_mem hx) _ (List.mem_map_of_mem hy)
    · rw [hdraws, htables]
      exact hsecond

variable {rows : List AttemptRow} {timeouts : List Timeout} {last : Draws}

/-- The oldest abandoned claims are timed out, as many as are released at once. -/
theorem reap_ok (hw : w.store.IsGrounded) (before : u.ReapsBefore now cutoff)
    (abandoned : w.store.tables.ListsAbandoned cutoff.micros rows)
    (batch : timeouts.map (·.row) = rows.take 100) (h : u.CanTimeOut w now timeouts last)
    (hread : w.store.tables.CanHandOut (rows.take 100)) :
    ∃ v, u.reap now w = (.ok (min rows.length 100), v) ∧
      v.store = { w.store with tables := w.store.tables.timeOut now timeouts } ∧
      v.draws = last ∧ ∀ n, w.ids.upcoming .response (timeouts.length + n) =
        timeouts.map (·.responseId) ++ v.ids.upcoming .response n := by
  have hstale : w.store.tables.staleClaims cutoff.micros reapLimit = rows.take 100 :=
    abandoned.staleClaims hw.indexed reapLimit
  obtain ⟨claims, hclaims, hread'⟩ :=
    mapM_readClaim_ok (w := w.begun) hw.idle.isOpen hw.indexed.lost hread
  rw [← hstale] at hclaims
  have hfind := findStale_apply hw.idle hw.indexed.lost fits_reapLimit hclaims
  have hmem : ∀ x ∈ timeouts, x.row ∈ rows.take 100 :=
    fun x hx => batch ▸ List.mem_map_of_mem hx
  have hheld : ∀ x ∈ timeouts, w.store.tables.Holding x.row := fun x hx =>
    ((abandoned.mem_iff _).mp (List.mem_of_mem_take (hmem x hx))).holding
  have hpairs : List.Forall₂ (Pairs w.store.tables.scheduleOf) claims timeouts := by
    rw [← batch, List.forall₂_map_right_iff] at hread'
    exact hread'.imp fun _ _ h => ⟨h.1, h.2⟩
  have hawaits : w.Awaits now timeouts := by
    refine ⟨hw.idle, hw.indexed, hheld, ?_, h.responseIds, h.distinct, h.fresh, fun x hx => ?_⟩
    · have hids := abandoned.nodup_attemptIds hw.indexed
      rw [← List.take_append_drop 100 rows, ← batch, List.map_append, List.map_map] at hids
      exact (List.nodup_append.mp hids).1
    · exact fits_elapsed before (hread _ (hmem x hx)).1 (hheld x hx).picked
  obtain ⟨v, hrun, hafter⟩ := reapAll_ok hawaits hpairs h.decides
  have hlength : timeouts.length = min rows.length 100 := by
    rw [← List.length_map (·.row), batch, List.length_take, Nat.min_comm]
  refine ⟨v, ?_, hafter⟩
  rw [reap_eq before, bind_apply, hfind, ← hlength]
  exact hrun

/-- If one of them cannot be read, none is released. -/
theorem reap_error (hw : w.store.IsGrounded) (before : u.ReapsBefore now cutoff)
    (abandoned : w.store.tables.ListsAbandoned cutoff.micros rows)
    (hread : ¬ w.store.tables.CanHandOut (rows.take 100)) :
    ∃ x, u.reap now w = (.error (.record x), w) := by
  have hstale : w.store.tables.staleClaims cutoff.micros reapLimit = rows.take 100 :=
    abandoned.staleClaims hw.indexed reapLimit
  have hdelivers : ∀ r ∈ rows.take 100, w.store.tables.Delivers r.eventId r.subscriptionId :=
    fun r hr => hw.grounded r ((abandoned.mem_iff r).mp (List.mem_of_mem_take hr)).stored
  obtain ⟨x, hx⟩ :=
    mapM_readClaim_error (w := w.begun) hw.idle.isOpen hw.indexed.lost hdelivers hread
  rw [← hstale] at hx
  have hfind := findStale_apply hw.idle hw.indexed.lost fits_reapLimit hx
  refine ⟨x, ?_⟩
  rw [reap_eq before, bind_apply, hfind]
  rfl

/-- So many calls in turn, at one time. -/
def reapTimes (u : WorkerUnit) (now : Int) : Nat → Engine (List Nat)
  | 0 => pure []
  | calls + 1 => do
    let count ← u.reap now
    return count :: (← u.reapTimes now calls)

/-- Enough calls time out all abandoned claims. -/
theorem reapTimes_ok {calls : Nat} (hw : w.store.IsGrounded) (before : u.ReapsBefore now cutoff)
    (abandoned : w.store.tables.ListsAbandoned cutoff.micros rows)
    (all : timeouts.map (·.row) = rows) (h : u.CanTimeOut w now timeouts last)
    (hread : w.store.tables.CanHandOut rows) (enough : rows.length ≤ calls * 100) :
    ∃ counts v, u.reapTimes now calls w = (.ok counts, v) ∧ counts.sum = rows.length ∧
      v.store = { w.store with tables := w.store.tables.timeOut now timeouts } := by
  induction calls generalizing w rows timeouts with
  | zero =>
    rw [Nat.zero_mul, Nat.le_zero, List.length_eq_zero_iff] at enough
    subst enough
    rw [List.map_eq_nil_iff] at all
    exact ⟨[], w, rfl, rfl, by rw [all, Tables.timeOut_nil]⟩
  | succ calls ih =>
    have hapart := abandoned.nodup_attemptIds hw.indexed
    rw [← all, List.map_map] at hapart
    rw [← List.take_append_drop 100 timeouts] at h hapart
    obtain ⟨next, hfirst, hrest⟩ := h.split
    have hbatch : (timeouts.take 100).map (·.row) = rows.take 100 := by rw [List.map_take, all]
    have hleft : (timeouts.drop 100).map (·.row) = rows.drop 100 := by rw [List.map_drop, all]
    obtain ⟨v, hrun, hstore, hdraws, hids⟩ := reap_ok hw before abandoned hbatch hfirst
      fun r hr => hread r (List.mem_of_mem_take hr)
    have htables : v.store.tables = w.store.tables.timeOut now (timeouts.take 100) := by rw [hstore]
    have hasks : w.store.Asks v.store := by
      refine ⟨.reap u now, w, rfl, ?_⟩
      rw [Request.run, store_map, hrun]
    rw [← List.take_append_drop 100 rows] at abandoned
    obtain ⟨counts, v', hruns, hsum, hlast⟩ := ih (hasks.isGrounded hw)
      (htables ▸ abandoned.timeOut hbatch) hleft (hrest v hdraws htables hids)
      (htables ▸ Tables.CanHandOut.timeOut (fun r hr => hread r (List.mem_of_mem_drop hr)) _ _)
      (by rw [List.length_drop]; omega)
    refine ⟨min rows.length 100 :: counts, v', ?_, ?_, ?_⟩
    · rw [reapTimes, bind_apply, hrun]
      dsimp only
      rw [bind_apply, hruns]
      rfl
    · rw [List.sum_cons, hsum, List.length_drop]
      omega
    · rw [hlast, htables, hstore, ← Tables.timeOut_append hapart, List.take_append_drop]

end WorkerUnit

open Engine in
/-- One call releases the claims that were picked longest ago, at most a hundred of those before the
cutoff: each gets a response that tells of a timeout, and waits for a retry or fails as the policy
decides. All else is unchanged. Enough calls leave none. A batch in which the row of an attempt, of
its event or of its subscription cannot be read is not released; there is none where only dated
requests lead. -/
theorem abandoned_claims_are_released {onFile : Bool} {w : World}
    (h : (Store.create onFile).Strays w.store) {u : WorkerUnit} {now : Int} {cutoff : ClockTime}
    (before : u.ReapsBefore now cutoff) {rows : List AttemptRow}
    (abandoned : w.store.tables.ListsAbandoned cutoff.micros rows) :
    (¬ w.store.tables.CanHandOut (rows.take 100) →
      ∃ x, u.reap now w = (.error (.record x), w)) ∧
    ((Store.create onFile).LeadsDated w.store →
      (w.store.tables.responses.length : Int) ≤ AttemptRow.maxInteger →
      w.store.tables.CanHandOut rows) ∧
    ∀ timeouts last, u.CanTimeOut w now timeouts last →
      (timeouts.map (·.row) = rows.take 100 → w.store.tables.CanHandOut (rows.take 100) →
        ∃ v, u.reap now w = (.ok (min rows.length 100), v) ∧
          v.store = { w.store with tables := w.store.tables.timeOut now timeouts }) ∧
      (timeouts.map (·.row) = rows → w.store.tables.CanHandOut rows →
        ∃ counts v, u.reapTimes now (rows.length ⌈/⌉ 100) w = (.ok counts, v) ∧
          counts.sum = rows.length ∧
          v.store = { w.store with tables := w.store.tables.timeOut now timeouts } ∧
          v.store.tables.ListsAbandoned cutoff.micros []) := by
  have hw := h.isGrounded (Store.isGrounded_create onFile)
  refine ⟨WorkerUnit.reap_error hw before abandoned, fun hdated bounded r hr => ?_,
    fun timeouts last htimeouts => ⟨?_, ?_⟩⟩
  · have hstored := ((abandoned.mem_iff r).mp hr).stored
    have hlegible : w.store.tables.IsLegible :=
      ⟨hdated.leads.isTended.intact, hdated.isReadable, bounded⟩
    exact ⟨hlegible.attempt hstored, hlegible.supplies hstored⟩
  · intro hbatch hread
    obtain ⟨v, hrun, hstore, -⟩ :=
      WorkerUnit.reap_ok hw before abandoned hbatch htimeouts hread
    exact ⟨v, hrun, hstore⟩
  · intro hall hread
    have enough : rows.length ≤ rows.length ⌈/⌉ 100 * 100 := by
      have hpos : 0 < 100 := by decide
      rw [Nat.mul_comm]
      exact le_smul_ceilDiv hpos
    obtain ⟨counts, v, hrun, hsum, hstore⟩ :=
      WorkerUnit.reapTimes_ok hw before abandoned hall htimeouts hread enough
    refine ⟨counts, v, hrun, hsum, hstore, ?_⟩
    rw [hstore]
    exact Tables.ListsAbandoned.timeOut (by rwa [List.append_nil]) hall

namespace Sample

def createAttempt (event : Nat) : List Operation :=
  [.storeEvent { Sample.event with eventId := .ofNat event },
    .replay (.ofNat event) application (some scheduled.subscriptionId) 0]

/-- Of three attempts the first one is claimed in the twentieth second, the second one in the tenth and
the third one in the sixtieth. -/
def claimedInDisorder : World :=
  world.runAll (.saveSubscription scheduled ::
    (createAttempt 3 ++ createAttempt 4 ++ createAttempt 5) ++
      [.claim claimant 20000000, .claim claimant 10000000, .claim claimant 60000000])

theorem reapsBefore_hundredth : unit.ReapsBefore 100000000 (.utc 55000000) :=
  ⟨45000000, by decide +kernel, by decide +kernel⟩

/-- What becomes of an attempt that has not been retried: it is tried once more. -/
theorem decides_timedOut : ∀ n < 2, ∃ decision,
    unit.policy.decide ⟨[], n⟩ scheduled.retrySchedule 0 .timedOut (.utc 100000000) =
      (.ok decision, ⟨[], n + 1⟩) ∧
    RetryDecision.time? (some decision) = some 100500000 := by
  have hshown : ∀ n < 2,
      let step := unit.policy.decide ⟨[], n⟩ scheduled.retrySchedule 0 .timedOut (.utc 100000000)
      step.1.toOption.bind (RetryDecision.time? ∘ some) = some 100500000 ∧
        step.2.cycle.isEmpty ∧ step.2.used = n + 1 := by
    decide +kernel
  intro n hn
  have h := hshown n hn
  generalize unit.policy.decide ⟨[], n⟩ scheduled.retrySchedule 0 .timedOut (.utc 100000000) = step
    at h ⊢
  obtain ⟨e | decision, cycle, used⟩ := step
  · cases h.1
  · obtain ⟨htime, hcycle, rfl⟩ := h
    obtain rfl := List.isEmpty_iff.mp hcycle
    exact ⟨decision, rfl, htime⟩

/-- The two claims from before the cutoff are abandoned, and can be released. -/
theorem abandons_claimedInDisorder : ∃ a b c,
    claimedInDisorder.store.tables.attempts = [a, b, c] ∧
    (a.pickedAt, b.pickedAt, c.pickedAt) = (some 20000000, some 10000000, some 60000000) ∧
    (c.retryCount, c.delayUntil) = (0, some 0) ∧
    claimedInDisorder.store.tables.ListsAbandoned 55000000 [b, a] ∧
    claimedInDisorder.store.tables.CanHandOut [b, a] ∧
    (∀ r ∈ [b, a], r.retryCount = 0 ∧
      claimedInDisorder.store.tables.scheduleOf r = scheduled.retrySchedule) := by
  refine ⟨_, _, _, rfl, rfl, rfl, ⟨fun r => ⟨fun hr => ?_, fun hr => ?_⟩, ?_⟩, fun r hr => ?_,
    fun r hr => ?_⟩
  · rcases List.mem_pair.mp hr with rfl | rfl
    · exact ⟨List.mem_cons_of_mem _ List.mem_cons_self, rfl, 10000000, rfl, by decide⟩
    · exact ⟨List.mem_cons_self, rfl, 20000000, rfl, by decide⟩
  · obtain ⟨hstored, -, time, hpicked, hbefore⟩ := hr
    simp only [List.mem_cons]
    rcases List.mem_cons.mp hstored with rfl | hstored
    · exact .inr (.inl rfl)
    rcases List.mem_pair.mp hstored with rfl | rfl
    · exact .inl rfl
    · cases hpicked
      exact absurd hbefore (by decide +kernel)
  · exact List.pairwise_pair.mpr ⟨10000000, rfl, 20000000, rfl, by decide⟩
  · rcases List.mem_pair.mp hr with rfl | rfl
    · exact ⟨⟨rfl, by decide⟩, ⟨{ event with eventId := .ofNat 4 }, rfl, by decide⟩, scheduled, rfl,
        rfl⟩
    · exact ⟨⟨rfl, by decide⟩, ⟨event, rfl, by decide⟩, scheduled, rfl, rfl⟩
  · rcases List.mem_pair.mp hr with rfl | rfl <;> exact ⟨rfl, rfl⟩

end Sample

open Sample in
/-- In the hundredth second the two claims from before the cutoff are released, the one from the tenth
second first, and their attempts wait for another try. The claim from after the cutoff is still
held. -/
theorem held_claim_is_released : (Store.create true).Strays claimedInDisorder.store ∧
    unit.ReapsBefore 100000000 (.utc 55000000) ∧ ∃ a b x y last,
      claimedInDisorder.store.tables.ListsAbandoned (ClockTime.utc 55000000).micros [b, a] ∧
      unit.CanTimeOut claimedInDisorder 100000000 [x, y] last ∧ [x.row, y.row] = [b, a] ∧
      claimedInDisorder.store.tables.CanHandOut [b, a] ∧
      ∃ v, unit.reap 100000000 claimedInDisorder = (.ok 2, v) ∧
        v.store.tables.attempts.map (fun r => (r.pickedAt, r.retryCount, r.delayUntil)) =
          [(none, 1, some 100500000), (none, 1, some 100500000), (some 60000000, 0, some 0)] ∧
        v.store.tables.responses.map (fun x => (x.attemptId, x.error)) =
          [(b.attemptId, some .timeout), (a.attemptId, some .timeout)] := by
  have h : (Store.create true).Strays claimedInDisorder.store := (Store.leads_runAll world _).strays
  obtain ⟨a, b, c, hrows, hpicked, hkept, habandoned, hread, hdue⟩ := abandons_claimedInDisorder
  obtain ⟨⟨hcountB, hscheduleB⟩, hcountA, hscheduleA⟩ :=
    (List.forall_mem_cons.mp hdue).imp_right (List.forall_mem_singleton.mp ·)
  obtain ⟨first, hfirst, hfirstTime⟩ := decides_timedOut 0 (by decide)
  obtain ⟨next, hnext, hnextTime⟩ := decides_timedOut 1 (by decide)
  rw [← hscheduleB, ← hcountB] at hfirst
  rw [← hscheduleA, ← hcountA] at hnext
  have hids : [.ofNat 1001, .ofNat 1002] = claimedInDisorder.ids.upcoming .response 2 := by
    decide +kernel
  have hnone : claimedInDisorder.store.tables.responses = [] :=
    List.isEmpty_iff.mp (by decide +kernel)
  let x : Timeout := ⟨b, .ofNat 1001, first⟩
  let y : Timeout := ⟨a, .ofNat 1002, next⟩
  have hout : unit.CanTimeOut claimedInDisorder 100000000 [x, y] ⟨[], 2⟩ :=
    ⟨hids, (by decide : [Uuid.ofNat 1001, .ofNat 1002].Nodup),
      fun _ _ => by rw [Tables.response?, hnone, List.find?_nil], .cons hfirst (.cons hnext (.nil _))⟩
  obtain ⟨v, hrun, hstore⟩ := ((abandoned_claims_are_released h reapsBefore_hundredth
    habandoned).2.2 _ _ hout).1 rfl hread
  refine ⟨h, reapsBefore_hundredth, a, b, x, y, _, habandoned, hout, rfl, hread, v, hrun, ?_, ?_⟩
  · obtain ⟨ha, hb, hc⟩ : a.pickedAt = some 20000000 ∧ b.pickedAt = some 10000000 ∧
        c.pickedAt = some 60000000 := by simpa using hpicked
    have hba : b ≠ a := fun hsame => by simp [hsame, ha] at hb
    have hbc : b ≠ c := fun hsame => by simp [hsame, hc] at hb
    have hac : a ≠ c := fun hsame => by simp [hsame, hc] at ha
    have hfree : Timeout.settle 100000000 [x, y] a = y.released 100000000 :=
      (Timeout.settle_of_ne hba).trans (Timeout.settle_self (x := y))
    have hfree' : Timeout.settle 100000000 [x, y] b = x.released 100000000 :=
      Timeout.settle_self (x := x)
    have hheld : Timeout.settle 100000000 [x, y] c = c :=
      (Timeout.settle_of_ne hbc).trans (Timeout.settle_of_ne hac)
    have hretry := y.released_of_retry 100000000 hnextTime
    have hretry' := x.released_of_retry 100000000 hfirstTime
    rw [show y.row.retryCount = 0 from hcountA] at hretry
    rw [show x.row.retryCount = 0 from hcountB] at hretry'
    obtain ⟨hcount, hdelay⟩ := Prod.mk.inj hkept
    simp only [hstore, Tables.timeOut, hrows, List.map_cons, List.map_nil, hfree, hfree', hheld,
      hretry, hretry', hc, hcount, hdelay]
    rfl
  · rw [hstore]
    rfl

namespace Sample

/-- The only attempt was claimed in the tenth second, and has not ended. -/
def stalled : World := world.runAll beginScheduled

/-- The attempt is abandoned. -/
theorem abandons_stalled : ∃ r, stalled.store.tables.attempts = [r] ∧
    stalled.store.tables.ListsAbandoned 55000000 [r] ∧
    r.retryCount = 0 ∧ stalled.store.tables.scheduleOf r = scheduled.retrySchedule := by
  refine ⟨_, rfl, ⟨fun r => ⟨fun hr => ?_, fun hr => hr.stored⟩, List.pairwise_singleton _ _⟩, rfl,
    rfl⟩
  obtain rfl := List.mem_singleton.mp hr
  exact ⟨hr, rfl, 10000000, rfl, by decide⟩

/-- Meanwhile the event is marked as dispatched, at a time that a clock in the west shows in the
last hour of the year 9999. -/
def mismarked : World := (Engine.markDispatched event.eventId 253402304399000000 stalled).2

end Sample

open Sample in
/-- The claim is abandoned as before and could be recorded, but it is never released. -/
theorem western_mark_keeps_claim : (Store.create true).Strays mismarked.store ∧
    unit.ReapsBefore 100000000 (.utc 55000000) ∧ ∃ r x last,
      mismarked.store.tables.ListsAbandoned (ClockTime.utc 55000000).micros [r] ∧
      unit.CanTimeOut mismarked 100000000 [x] last ∧ x.row = r ∧
      ∃ e, unit.reap 100000000 mismarked = (.error (.record e), mismarked) := by
  have h : (Store.create true).Strays mismarked.store :=
    (Store.leads_runAll world beginScheduled).strays.tail
      (.inl ⟨.markDispatched event.eventId 253402304399000000, stalled, rfl, Engine.store_map ..⟩)
  obtain ⟨r, hattempts, ⟨hmem, holdest⟩, hcount, hschedule⟩ := abandons_stalled
  obtain ⟨decision, hdecides, -⟩ := decides_timedOut 0 (by decide)
  rw [← hschedule, ← hcount] at hdecides
  have habandoned : mismarked.store.tables.ListsAbandoned 55000000 [r] :=
    ⟨fun x => (hmem x).trans ⟨fun h => ⟨h.stored, h.isOpen, h.picked⟩,
      fun h => ⟨h.stored, h.isOpen, h.picked⟩⟩, holdest⟩
  have hout :
      unit.CanTimeOut mismarked 100000000 [⟨r, stalled.ids.next .response, decision⟩] ⟨[], 1⟩ :=
    ⟨rfl, List.nodup_singleton _, fun x _ => rfl, .cons hdecides (.nil _)⟩
  refine ⟨h, reapsBefore_hundredth, r, _, _, habandoned, hout, rfl, ?_⟩
  refine WorkerUnit.reap_error (h.isGrounded (Store.isGrounded_create true)) reapsBefore_hundredth
    habandoned fun hread => ?_
  obtain ⟨-, ⟨e, he, hcheck⟩, -⟩ := hread r List.mem_cons_self
  obtain rfl := List.mem_singleton.mp (List.mem_of_find?_eq_some he)
  revert hcheck
  decide

end WebhookDelivery
