import WebhookDelivery.Proofs.Executions

/-!
# WebhookDelivery.Proofs.Timestamps

The times that workers record. Only an exchange with a target takes time, so an outcome is recorded at
the time with which the response is stamped.

* `Engine.Stamps`: the response is stamped with the time at which it is given;
  `Client.stamps_execute` says so of executions.
* `Engine.IsInstant`: the body takes no time. `WorkerUnit.isInstant_finalize` says so of the recording
  of outcomes.
* `Attempt.Decides.inRange`: a retry is decided for a time in the calendar.
-/

namespace WebhookDelivery

namespace Engine

variable {α β : Type}

/-- A response is stamped with the time at which it is given. -/
def Stamps (body : Engine Response) : Prop :=
  ∀ w r, (body w).1 = .ok r → r.createdAt = .utc (body w).2.clock

namespace Stamps

theorem throw (e : OperationError) : Stamps (throw e) := fun _ _ h => by cases h

theorem bind {x : Engine α} {f : α → Engine Response} (hf : ∀ a, Stamps (f a)) :
    Stamps (x >>= f) := by
  intro w r
  rw [bind_apply]
  cases hx : x w with
  | mk result v =>
    cases result with
    | error e => exact fun h => by cases h
    | ok a => exact hf a v r

end Stamps

/-- The body takes no time. -/
def IsInstant (body : Engine α) : Prop := ∀ w, (body w).2.clock = w.clock

namespace IsInstant

variable {body : Engine α}

theorem pure (a : α) : IsInstant (pure a) := fun _ => rfl

theorem throw (e : OperationError) : IsInstant (throw e : Engine α) := fun _ => rfl

theorem bind {f : α → Engine β} (h : IsInstant body) (hf : ∀ a, IsInstant (f a)) :
    IsInstant (body >>= f) := by
  intro w
  have hw := h w
  rw [bind_apply]
  cases hr : body w with
  | mk result v =>
    rw [hr] at hw
    cases result with
    | error e => exact hw
    | ok a => exact (hf a v).trans hw

theorem atomically (h : IsInstant body) : IsInstant (atomically body) := by
  intro w
  unfold Engine.atomically
  split
  · rfl
  · split
    · exact h w
    · have hb := h { w with store := { w.store with inTransaction := true } }
      cases hr : body { w with store := { w.store with inTransaction := true } } with
      | mk result v =>
        rw [hr] at hb
        unfold settle
        dsimp only
        split
        · exact hb
        · split <;> exact hb

end IsInstant

theorem isInstant_touch (name : TableName) : IsInstant (touch name) := by
  intro w
  rw [touch_eq]
  split <;> rfl

theorem isInstant_checkInteger (n : Int) : IsInstant (checkInteger n) := by
  unfold checkInteger
  split
  · exact .pure ()
  · exact .throw _

theorem isInstant_statement (f : Tables → Except StatementError (α × Tables)) :
    IsInstant (statement f) := by
  intro w
  rw [statement_apply]
  split <;> rfl

theorem isInstant_insertResponse (r : Response) : IsInstant (insertResponse r) := by
  have hrecord : IsInstant (do
      checkInteger r.elapsedMs
      statement fun t => (t.insertResponse r).map fun t => ((), t)) :=
    (isInstant_checkInteger _).bind fun _ => isInstant_statement _
  refine (isInstant_touch _).bind fun _ => ?_
  split
  · exact (isInstant_checkInteger _).bind fun _ => hrecord
  · exact hrecord

theorem isInstant_finalize (claimed : Attempt) (r : Response) (now : Int) (retryAt : Option Int) :
    IsInstant (finalize claimed r now retryAt) := by
  unfold finalize
  split
  · exact .throw _
  · refine .atomically ((isInstant_touch _).bind fun _ => .bind (fun _ => rfl) fun held => ?_)
    cases held with
    | true => exact (isInstant_insertResponse r).bind fun _ => .pure true
    | false => exact .bind (fun _ => rfl) fun _ => .pure false

end Engine

namespace Client

open Engine

theorem stamps_respond (start : Int) (a : Attempt) (error : Option FailureKind)
    (received : Option Received) : Stamps (respond start a error received) :=
  fun _ r h => by cases h; rfl

theorem stamps_deliver (settings : WorkerSettings) (fields : LogFields) (start : Int) (a : Attempt)
    (e : Event) (s : Subscription) (now : Int) :
    Stamps (deliver settings fields start a e s now) := by
  refine .bind fun _ => .bind fun _ => .bind fun _ => .bind fun x => ?_
  obtain ⟨reply, exchange⟩ := x
  dsimp only
  split
  all_goals first
    | exact .throw _
    | exact .bind fun _ => stamps_respond _ _ _ _

theorem stamps_execute (settings : WorkerSettings) (a : Attempt) (e : Event) (s : Subscription)
    (now : Int) : Stamps (execute settings a e s now) := by
  refine .bind fun w => .bind fun check => ?_
  cases check with
  | allowed => exact stamps_deliver _ _ _ _ _ _ _
  | refused why => exact .bind fun _ => stamps_respond _ _ _ _
  | unresolved err => exact .bind fun _ => stamps_respond _ _ _ _
  | unreadableHost e => exact .throw _
  | unreadableAddress address => exact .throw _

end Client

namespace WorkerUnit

open Engine

theorem isInstant_finalize (u : WorkerUnit) (claim : Claim) (r : Response) (now : Int) :
    IsInstant (u.finalize claim r now) := by
  have hdecide : IsInstant (u.decide claim r now) := by
    intro w
    cases hf : r.failure? with
    | none =>
      unfold decide
      rw [hf]
      rfl
    | some failure => rw [decide_apply hf rfl]
  have hreport : ∀ decision held, IsInstant (report r decision held) := by
    intro decision held
    unfold report
    split
    · refine .bind ?_ fun _ => .pure true
      unfold logDecision
      split <;> exact fun _ => rfl
    · exact .pure false
  rw [finalize_eq]
  exact hdecide.bind fun decision => (Engine.isInstant_finalize _ _ _ _).bind fun held =>
    hreport decision held

/-- What follows the processing of a claim takes no time. -/
theorem clock_processSafely (u : WorkerUnit) (claim : Claim) (w : World) :
    (u.processSafely claim w).2.clock =
      (u.process claim { w with log := w.log.bind (Log.attemptFields claim.attempt) }).2.clock := by
  have hrest : ∀ e : OperationError, IsInstant (if e.isStorage then throw e
      else Engine.logCause logger "Unexpected error processing attempt" e) := by
    intro e
    split
    · exact .throw e
    · exact fun _ => rfl
  unfold processSafely withFields
  dsimp only
  rw [bind_apply]
  cases hr : u.process claim { w with log := w.log.bind (Log.attemptFields claim.attempt) } with
  | mk result v =>
    have ha : attempt? (u.process claim)
        { w with log := w.log.bind (Log.attemptFields claim.attempt) } = (.ok result, v) := by
      unfold attempt?
      rw [hr]
    rw [ha]
    cases result with
    | ok _ => rfl
    | error e => exact hrest e v

end WorkerUnit

/-! ## Retries -/

/-- A reading of a universal clock that is moved stays in the calendar. -/
theorem ClockTime.inRange_of_addSeconds? {now : Int} {seconds : Float} {t : ClockTime}
    (h : (ClockTime.utc now).addSeconds? seconds = .ok t) : ClockTime.inRange t.micros := by
  unfold addSeconds? at h
  split at h
  · unfold addMicros? at h
    split at h
    · rename_i hr
      cases h
      simpa [micros, utc] using hr
    · cases h
  · cases h

theorem RetrySettings.inRange_of_decide {s : RetrySettings} {draws : Draws}
    {schedule : Option RetrySchedule} {count now : Int} {failure : Failure} {time : ClockTime}
    {delay : Float}
    (h : (s.decide draws schedule count failure (.utc now)).1 = .ok (.retryAt time delay)) :
    ClockTime.inRange time.micros := by
  unfold decide at h
  split at h
  · cases h
  · split at h
    · cases h
    · dsimp only at h
      split at h
      · rename_i ht
        cases h
        exact ClockTime.inRange_of_addSeconds? ht
      · cases h

/-- A retry is decided for a time in the calendar. -/
theorem Attempt.Decides.inRange {a : Attempt} {r : Response} {now : Int}
    {decision : Option RetryDecision} (h : a.Decides r now decision) :
    (RetryDecision.time? decision).all ClockTime.inRange := by
  unfold Decides at h
  split at h
  · subst h
    rfl
  · obtain ⟨s, draws, schedule, d, rfl, hd⟩ := h
    cases d with
    | giveUp why => rfl
    | retryAt time delay => exact RetrySettings.inRange_of_decide hd

end WebhookDelivery
