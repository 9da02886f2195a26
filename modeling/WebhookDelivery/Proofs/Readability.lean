import WebhookDelivery.Proofs.Completion
import WebhookDelivery.Proofs.Timestamps

/-!
# WebhookDelivery.Proofs.Readability

Rows that were stored can be read back. A time is stored as an instant, and read back as the reading
of a universal clock at it, which the calendar may not have: a clock in the west still shows the year
9999 when that year is over elsewhere.

* `Tables.IsReadable`: all rows can be read back, as long as there are not too many retries to count.
* `Operation.IsDated`: all times with which an operation is called lie in the calendar of a universal
  clock. `Operation.meets_isReadable` says that rows stay readable then.
* `Store.LeadsDated`: dated requests lead from a store to another. `WorkerUnit.reaches_runOnce` says
  that a turn of a unit is made of such requests if the clock does not leave the calendar during it.
* `Tables.IsLegible`: nothing keeps a query from being answered. `completes_findStale_of_isLegible` and
  the like say so of the reads that load claims.
-/

namespace WebhookDelivery

/-! ## Times -/

namespace ClockTime

theorem inRange_max {a b : Int} (ha : inRange a) (hb : inRange b) : inRange (max a b) := by
  rcases Int.le_total a b with h | h
  · rwa [Int.max_eq_right h]
  · rwa [Int.max_eq_left h]

end ClockTime

/-- An event can be read back if its times lie in the calendar and it has labels. -/
theorem Event.check_eq_ok_iff {e : Event} : e.check = .ok e ↔
    (ClockTime.inRange e.occurredAt ∧ ClockTime.inRange e.receivedAt ∧
      e.dispatchedAt.all ClockTime.inRange) ∧ e.labels ≠ [] := by
  have htimes : ([e.occurredAt, e.receivedAt] ++ e.dispatchedAt.toList).all ClockTime.inRange ↔
      ClockTime.inRange e.occurredAt ∧ ClockTime.inRange e.receivedAt ∧
        e.dispatchedAt.all ClockTime.inRange := by
    cases e.dispatchedAt <;> simp
  rw [← htimes]
  unfold check
  by_cases ht : ([e.occurredAt, e.receivedAt] ++ e.dispatchedAt.toList).all ClockTime.inRange
  · by_cases hl : e.labels = [] <;> simp only [ht] <;> simp [hl]
  · simp only [ht]
    simp

theorem Subscription.readRow_eq_ok {s : Subscription} (h : ClockTime.inRange s.createdAt.micros) :
    s.readRow = .ok s := if_pos h

theorem Response.readRow_eq_ok {r : Response} (h : ClockTime.inRange r.createdAt.micros) :
    r.readRow = .ok r := if_pos h

/-! ## Rows -/

/-- The time that an outcome leaves on its row. -/
def Outcome.time : Outcome → Int
  | succeeded time | retried time | failed time => time

/-- The times of a row that are set lie in the calendar. -/
theorem AttemptRow.times_inRange_iff {r : AttemptRow} : r.times.all ClockTime.inRange ↔
    ClockTime.inRange r.createdAt ∧ r.pickedAt.all ClockTime.inRange ∧
      r.succeededAt.all ClockTime.inRange ∧ r.failedAt.all ClockTime.inRange ∧
      r.delayUntil.all ClockTime.inRange := by
  have hall : ∀ time : Option Int,
      time.toList.all ClockTime.inRange = time.all ClockTime.inRange := by
    intro time
    cases time <;> simp
  simp only [times, List.all_cons, List.all_append, Bool.and_eq_true, hall, and_assoc]

theorem AttemptRow.times_inRange_claimedBy {r : AttemptRow} (h : r.times.all ClockTime.inRange)
    (c : Claimant) {now : Int} (hn : ClockTime.inRange now) :
    (r.claimedBy c now).times.all ClockTime.inRange := by
  rw [times_inRange_iff] at h ⊢
  exact ⟨h.1, hn, h.2.2⟩

theorem AttemptRow.times_inRange_apply {r : AttemptRow} (h : r.times.all ClockTime.inRange)
    {o : Outcome} (ho : ClockTime.inRange o.time) (responseId : Uuid) :
    (o.apply responseId r).times.all ClockTime.inRange := by
  rw [times_inRange_iff] at h ⊢
  obtain ⟨hc, hp, hs, hf, hd⟩ := h
  cases o with
  | succeeded time => exact ⟨hc, hp, ho, hf, hd⟩
  | retried due => exact ⟨hc, rfl, hs, hf, ho⟩
  | failed time => exact ⟨hc, hp, hs, ho, hd⟩

theorem Engine.inRange_outcomeOf {r : Response} {now : Int} {retryAt : Option Int}
    (hn : ClockTime.inRange now) (hdue : retryAt.all ClockTime.inRange) :
    ClockTime.inRange (outcomeOf r now retryAt).time := by
  unfold outcomeOf
  split
  · exact hn
  · cases retryAt with
    | none => exact hn
    | some due => exact hdue

namespace Tables

/-- All rows can be read back. A retry leaves a response, so retries are not more than these. -/
structure IsReadable (t : Tables) : Prop where
  events : ∀ e ∈ t.events, e.check = .ok e
  subscriptions : ∀ s ∈ t.subscriptions, ClockTime.inRange s.createdAt.micros
  responses : ∀ x ∈ t.responses, ClockTime.inRange x.createdAt.micros
  times : ∀ r ∈ t.attempts, r.times.all ClockTime.inRange
  retryCounts : ∀ r ∈ t.attempts, r.retryCount ≤ t.responses.length

theorem isReadable_empty : empty.IsReadable := by
  constructor <;> exact fun _ h => absurd h List.not_mem_nil

namespace IsReadable

variable {t : Tables}

theorem insertEvent (h : t.IsReadable) {e : Event} (he : e.check = .ok e) :
    (t.insertEvent e).2.IsReadable := by
  unfold Tables.insertEvent
  split
  · exact h
  · refine { h with events := fun x hx => ?_ }
    rcases List.mem_append.mp hx with hx | hx
    · exact h.events x hx
    · rwa [List.mem_singleton.mp hx]

theorem markDispatched (h : t.IsReadable) (id : Uuid) {time : Int} (ht : ClockTime.inRange time) :
    (t.markDispatched id time).2.IsReadable := by
  refine { h with events := fun x hx => ?_ }
  obtain ⟨e, he, rfl⟩ := mem_updateRows.mp hx
  have hcheck := h.events e he
  split
  · rw [Event.check_eq_ok_iff] at hcheck ⊢
    exact ⟨⟨hcheck.1.1, hcheck.1.2.1, ht⟩, hcheck.2⟩
  · exact hcheck

theorem offer (h : t.IsReadable) {r : AttemptRow} (ht : r.times.all ClockTime.inRange)
    (hc : r.retryCount = 0) : (t.offer r).IsReadable := by
  unfold Tables.offer
  split
  · exact h
  · refine { h with times := fun x hx => ?_, retryCounts := fun x hx => ?_ }
    · rcases List.mem_append.mp hx with hx | hx
      · exact h.times x hx
      · rwa [List.mem_singleton.mp hx]
    · rcases List.mem_append.mp hx with hx | hx
      · exact h.retryCounts x hx
      · rw [List.mem_singleton.mp hx, hc]
        exact Int.natCast_nonneg _

theorem claim (h : t.IsReadable) (c : Claimant) {now : Int} (hn : ClockTime.inRange now) :
    (t.claim c now).2.IsReadable := by
  unfold Tables.claim
  split
  · exact h
  · refine { h with times := fun x hx => ?_, retryCounts := fun x hx => ?_ }
    · obtain ⟨r, hr, rfl⟩ := mem_updateRows.mp hx
      have ht := h.times r hr
      split
      · exact AttemptRow.times_inRange_claimedBy ht c hn
      · exact ht
    · obtain ⟨r, hr, rfl⟩ := mem_updateRows.mp hx
      split <;> exact h.retryCounts r hr

theorem saveSubscription (h : t.IsReadable) {s : Subscription}
    (hs : ClockTime.inRange s.createdAt.micros) : (t.saveSubscription s).IsReadable := by
  have hrow : ClockTime.inRange s.toRow.createdAt.micros := by
    rw [Subscription.toRow, ClockTime.micros_utc]
    exact hs
  unfold Tables.saveSubscription
  dsimp only
  split
  · refine { h with subscriptions := fun x hx => ?_ }
    obtain ⟨old, hold, rfl⟩ := mem_updateRows.mp hx
    split <;> exact h.subscriptions old hold
  · refine { h with subscriptions := fun x hx => ?_ }
    rcases List.mem_append.mp hx with hx | hx
    · exact h.subscriptions x hx
    · rwa [List.mem_singleton.mp hx]

theorem setEnabled (h : t.IsReadable) (id : Uuid) (enabled : Bool) :
    (t.setEnabled id enabled).2.IsReadable := by
  refine { h with subscriptions := fun x hx => ?_ }
  obtain ⟨s, hs, rfl⟩ := mem_updateRows.mp hx
  split <;> exact h.subscriptions s hs

/-- The end of a claim counts at most one retry, and adds a response. -/
theorem finish (h : t.IsReadable) (hs : t.Indexed) {e : Ending} {t' : Tables}
    (hr : ClockTime.inRange e.response.createdAt.micros)
    (ho : ClockTime.inRange e.outcome.time)
    (hf : t.finish? e = .ok t') : t'.IsReadable := by
  obtain rfl := finish?_eq_ok hs.referencesUnchecked hf
  refine { h with responses := fun x hx => ?_, times := fun x hx => ?_, retryCounts := fun x hx => ?_ }
  · rcases List.mem_append.mp hx with hx | hx
    · exact h.responses x hx
    · rw [List.mem_singleton.mp hx, Response.toRow, ClockTime.micros_utc]
      exact hr
  · obtain ⟨r, hm, rfl⟩ := mem_updateRows.mp hx
    have ht := h.times r hm
    split
    · exact AttemptRow.times_inRange_apply ht ho _
    · exact ht
  · obtain ⟨r, hm, rfl⟩ := mem_updateRows.mp hx
    have hc := h.retryCounts r hm
    rw [List.length_append, List.length_singleton]
    split
    · cases e.outcome <;> simp only [Outcome.apply] <;> omega
    · omega

end IsReadable
end Tables

/-! ## Dispatch and replay -/

namespace Data

variable {d : Data} {e : Event} {now : Int}

/-- A new attempt that is offered can be read back. -/
theorem isReadable_offer (h : d.tables.IsReadable) {id application event subscription : Uuid}
    {due : Int} {key : String} (hn : ClockTime.inRange now) (hd : ClockTime.inRange due) :
    (d.tables.offer (.new (.new id application event subscription now due) key)).IsReadable := by
  refine h.offer ?_ rfl
  simp [AttemptRow.times, AttemptRow.new, Attempt.new, ClockTime.micros_utc, hn, hd]

theorem isReadable_ingest (h : d.tables.IsReadable) (he : e.check = .ok e)
    (hn : ClockTime.inRange now) : (d.ingest e now).tables.IsReadable := by
  rcases d.ingest_cases e now with hd | hd
  · rwa [hd]
  · have hstored : (d.asStored e).check = .ok (d.asStored e) := by
      unfold asStored
      cases hs : d.tables.event? e.eventId with
      | none => exact he
      | some stored => exact h.events stored (mem_of_event? hs).1
    have hdue := ClockTime.inRange_max hn (Event.check_eq_ok_iff.mp hstored).1.1
    have hoffered : (((d.insertEvent e).receivers (d.asStored e)).foldl
        (dispatchTo (d.asStored e) now) (d.insertEvent e)).tables.IsReadable :=
      List.foldlRecOn (motive := fun d' : Data => d'.tables.IsReadable) _ _ (h.insertEvent he)
        fun d' h' _ _ => isReadable_offer h' hn hdue
    rw [hd]
    exact hoffered.markDispatched _ hn

theorem isReadable_replayAll (h : d.tables.IsReadable) (eventId application : Uuid)
    (hn : ClockTime.inRange now) (targets : List Subscription) :
    (d.replayAll eventId application now targets).tables.IsReadable := by
  refine List.foldlRecOn (motive := fun d' : Data => d'.tables.IsReadable) _ _ h
    fun d' h' s _ => ?_
  unfold replayTo
  split
  · exact h'
  · exact isReadable_offer h' hn hn

end Data

/-! ## Operations -/

namespace Operation

/-- The operation is called with events that pass their check and with times that lie in the calendar
of a universal clock. -/
def IsDated : Operation → Prop
  | storeEvent e => e.check = .ok e
  | ingest e now => e.check = .ok e ∧ ClockTime.inRange now
  | replay _ _ _ now | claim _ now => ClockTime.inRange now
  | finalize _ r now retryAt =>
    ClockTime.inRange r.createdAt.micros ∧ ClockTime.inRange now ∧ retryAt.all ClockTime.inRange
  | saveSubscription s => ClockTime.inRange s.createdAt.micros
  | findStale _ _ | setEnabled _ _ => True

theorem meets_isReadable {o : Operation} (ho : o.IsDated) :
    o.run.Meets fun d _ d' => d.tables.Indexed → d.tables.IsReadable → d'.tables.IsReadable := by
  cases o with
  | storeEvent e =>
    refine ((Engine.meets_insertEvent e).map _).mono ?_
    rintro d _ d' ⟨_, ⟨ht, -⟩, rfl⟩ - h
    rw [show d'.tables = (d.tables.insertEvent e).2 from congrArg Prod.snd ht]
    exact h.insertEvent ho
  | ingest e now =>
    refine ((Engine.meets_ingest e now).map _).mono ?_
    rintro d _ d' ⟨_, ⟨rfl, -⟩, rfl⟩ - h
    exact Data.isReadable_ingest h ho.1 ho.2
  | replay eventId application subscription now =>
    refine ((Engine.meets_replay eventId application subscription now).map _).mono ?_
    rintro d _ d' ⟨_, ⟨_, targets, -, -, rfl⟩, rfl⟩ - h
    exact Data.isReadable_replayAll h eventId application ho targets
  | claim c now =>
    refine ((Engine.meets_claimNext c now).map _).mono ?_
    rintro d _ d' ⟨_, ⟨rfl, -⟩, rfl⟩ - h
    exact h.claim c ho
  | findStale before limit =>
    refine ((Engine.meets_findStale before limit).map _).mono ?_
    rintro d _ d' ⟨_, ⟨-, rfl⟩, rfl⟩ - h
    exact h
  | finalize claimed r now retryAt =>
    refine ((Engine.meets_finalize claimed r now retryAt).map _).mono ?_
    rintro d _ d' ⟨held, ⟨pickedAt, -, -, hd⟩, rfl⟩ hi h
    cases held with
    | false =>
      rw [if_neg Bool.false_ne_true] at hd
      rwa [hd]
    | true =>
      obtain ⟨hr, hn, hdue⟩ := ho
      refine h.finish (e := ⟨⟨claimed.attemptId, pickedAt.micros, claimed.workerName⟩,
        Engine.outcomeOf r now retryAt, r⟩) hi hr (Engine.inRange_outcomeOf hn hdue) hd.1
  | saveSubscription s =>
    refine ((Engine.meets_saveSubscription s).map _).mono ?_
    rintro d _ d' ⟨_, rfl, rfl⟩ - h
    exact h.saveSubscription ho
  | setEnabled id enabled =>
    refine ((Engine.meets_setSubscriptionEnabled id enabled).map _).mono ?_
    rintro d _ d' ⟨_, ⟨ht, -⟩, rfl⟩ - h
    rw [show d'.tables = (d.tables.setEnabled id enabled).2 from congrArg Prod.snd ht]
    exact h.setEnabled id enabled

end Operation

section Preservation

variable {I : Tables → Prop}

/-- A call keeps what its operation keeps; one that fails changes nothing. -/
theorem Call.keeps_of_meets {x : Call} (hi : x.before.IsIdle) (hs : x.before.tables.Indexed)
    (hx : x.operation.run.Meets fun d _ d' => d.tables.Indexed → I d.tables → I d'.tables)
    (h : I x.before.tables) : I x.after.tables := by
  cases ha : x.answer with
  | error e => rwa [tables_of_error hi ha]
  | ok a => exact (hx x.world).2 a ha hs h

/-- A run of calls keeps what the operations of all of them keep. -/
theorem Run.keeps_of_meets {s t : Store} {calls : List Call} (hrun : Run s calls t)
    (hx : ∀ x ∈ calls,
      x.operation.run.Meets fun d _ d' => d.tables.Indexed → I d.tables → I d'.tables)
    (hi : s.IsIdle) (hs : s.tables.Intact) (h : I s.tables) : I t.tables :=
  (hrun.preserves (I := fun s => s.IsIdle ∧ s.tables.Intact ∧ I s.tables) ⟨hi, hs, h⟩
    fun x hm ⟨hi, hs, h⟩ => ⟨Call.isIdle_after hi, Call.intact_after hi hs,
      Call.keeps_of_meets hi hs.sound.toIndexed (hx x hm) h⟩).1.2.2

theorem Engine.Performs.keeps_of_meets {α : Type} {p : Operation → Prop} {known : Attempt → Prop}
    {body : Engine α} {q : α → Prop} (hp : Performs p known body q)
    (hx : ∀ o, p o → o.run.Meets fun d _ d' => d.tables.Indexed → I d.tables → I d'.tables)
    {w : World} (hi : w.store.IsIdle) (hs : w.store.tables.Intact) (h : I w.store.tables) :
    I (body w).2.store.tables := by
  obtain ⟨⟨calls, hrun, hoperations, -⟩, -⟩ := hp w
  exact hrun.keeps_of_meets (fun x hm => hx _ (hoperations x hm)) hi hs h

end Preservation

/-- What dated operations do leaves all rows readable. -/
theorem Engine.Performs.isReadable {α : Type} {known : Attempt → Prop} {body : Engine α}
    {q : α → Prop} (hp : Performs Operation.IsDated known body q) {w : World}
    (hi : w.store.IsIdle) (hs : w.store.tables.Intact) (h : w.store.tables.IsReadable) :
    (body w).2.store.tables.IsReadable :=
  hp.keeps_of_meets (fun _ => Operation.meets_isReadable) hi hs h

/-! ## Workers -/

namespace WorkerUnit

open Engine

theorem isDated_finalize {a : Attempt} {r : Response} {now : Int} {decision : Option RetryDecision}
    (hn : ClockTime.inRange now) (hr : r.createdAt = .utc now) (hd : a.Decides r now decision) :
    (Operation.finalize a r now (RetryDecision.time? decision)).IsDated := by
  refine ⟨?_, hn, hd.inRange⟩
  rw [hr, ClockTime.micros_utc]
  exact hn

/-- What is recorded of an execution can be read back if the clock is in the calendar at its end. -/
theorem isReadable_process (u : WorkerUnit) (claim : Claim) {w : World} (hi : w.store.IsIdle)
    (hs : w.store.tables.Intact) (h : w.store.tables.IsReadable)
    (hn : ClockTime.inRange (u.process claim w).2.clock) :
    (u.process claim w).2.store.tables.IsReadable := by
  have hclock : ∀ v : World, clock v = (.ok v.clock, v) := fun _ => rfl
  have hexecute : Performs (fun _ => False) (fun _ => True)
      (Client.execute u.settings claim.attempt claim.event claim.subscription w.clock)
      fun r => r.Answers claim.attempt := Client.performs_execute _ _ _ _ _
  unfold process at hn ⊢
  rw [bind_apply, hclock] at hn ⊢
  dsimp only at hn ⊢
  rw [bind_apply] at hn ⊢
  have hkeeps := hexecute.keeps w
  have hanswers := (hexecute w).2
  have hstamps := Client.stamps_execute u.settings claim.attempt claim.event claim.subscription
    w.clock w
  cases hx : Client.execute u.settings claim.attempt claim.event claim.subscription w.clock w with
  | mk result v =>
    rw [hx] at hn hkeeps hanswers hstamps
    dsimp only at hn hkeeps hanswers hstamps ⊢
    rw [← hkeeps] at hi hs h
    cases result with
    | error e => exact h
    | ok r =>
      dsimp only at hn ⊢
      rw [bind_apply, hclock] at hn ⊢
      dsimp only at hn ⊢
      -- The outcome is recorded at the time that the response is stamped with.
      rw [u.isInstant_finalize claim r v.clock v] at hn
      have hfinalize : Performs Operation.IsDated (fun _ => True) (u.finalize claim r v.clock)
          fun _ => True :=
        u.performs_finalize trivial (hanswers r rfl) fun _ hd =>
          isDated_finalize hn (hstamps r rfl) hd
      exact hfinalize.isReadable hi hs h

end WorkerUnit

/-! ## Requests -/

namespace Request

/-- All times that a request brings with it lie in the calendar; to process a claim, the clock is in
the calendar at its end. -/
def IsDated : Request → World → Prop
  | operation o, _ => o.IsDated
  | query _, _ => True
  | markDispatched _ time, _ => ClockTime.inRange time
  | dispatchPending now _, _ | reap _ now, _ => ClockTime.inRange now
  | process u claim, w => ClockTime.inRange (u.process claim w).2.clock

theorem isReadable (q : Request) {w : World} (hw : w.store.IsTended) (hq : q.IsDated w)
    (h : w.store.tables.IsReadable) : (q.run w).2.store.tables.IsReadable := by
  cases q with
  | operation o =>
    rw [run, Engine.store_map]
    exact Call.keeps_of_meets (x := ⟨o, w⟩) hw.idle hw.intact.sound.toIndexed
      (Operation.meets_isReadable hq) h
  | query q => rwa [run, q.keeps_run w]
  | markDispatched id time =>
    rw [run, Engine.store_map]
    cases hr : (Engine.markDispatched id time w).1 with
    | error e =>
      have ht : (Engine.markDispatched id time w).2.store.tables = w.store.tables :=
        Engine.Reverts.atomically _ w hw.idle.inTransaction e hr
      rwa [ht]
    | ok b =>
      obtain ⟨ht, -⟩ := (Engine.meets_markDispatched id time w).2 b hr
      change (b, (Engine.markDispatched id time w).2.store.tables) = _ at ht
      rw [show (Engine.markDispatched id time w).2.store.tables = _ from congrArg Prod.snd ht]
      exact h.markDispatched id hq
  | dispatchPending now limit =>
    have hp : Engine.Performs Operation.IsDated (fun _ => True) (Engine.dispatchPending now limit)
        fun _ => True := by
      refine (Engine.performs_dispatchPending _ now limit).weaken ?_
      rintro _ ⟨e, -, he, rfl⟩
      exact ⟨he, hq⟩
    rw [run, Engine.store_map]
    exact hp.isReadable hw.idle hw.intact h
  | process u claim =>
    rw [run, Engine.store_map]
    exact u.isReadable_process claim hw.idle hw.intact h hq
  | reap u now =>
    have hp : Engine.Performs Operation.IsDated (fun _ => True) (u.reap now) fun _ => True :=
      u.performs_reap_of _ (fun _ _ => trivial) fun _ _ _ hr hd =>
        WorkerUnit.isDated_finalize hq hr.createdAt hd
    rw [run, Engine.store_map]
    exact hp.isReadable hw.idle hw.intact h

end Request

namespace Store

/-- A dated request leads from a store to another. -/
def AsksDated (s t : Store) : Prop :=
  ∃ (q : Request) (w : World), q.IsDated w ∧ w.store = s ∧ (q.run w).2.store = t

abbrev LeadsDated : Store → Store → Prop := Relation.ReflTransGen AsksDated

variable {s t : Store} {w : World}

theorem LeadsDated.leads (h : s.LeadsDated t) : s.Leads t :=
  h.lift id fun _ _ ⟨q, w, _, hs, ht⟩ => ⟨q, w, hs, ht⟩

theorem leadsDated_request (q : Request) (hq : q.IsDated w) :
    w.store.LeadsDated (q.run w).2.store :=
  .single ⟨q, w, hq, rfl, rfl⟩

theorem leadsDated_runAll (w : World) {operations : List Operation}
    (h : ∀ o ∈ operations, o.IsDated) : w.store.LeadsDated (w.runAll operations).store := by
  induction operations generalizing w with
  | nil => exact .refl
  | cons o rest ih =>
    rw [List.forall_mem_cons] at h
    have hq := leadsDated_request (w := w) (.operation o) h.1
    rw [Request.run, Engine.store_map] at hq
    exact hq.trans (ih (o.run w).2 h.2)

/-- Where only dated requests lead, all rows can be read back. -/
theorem LeadsDated.isReadable {onFile : Bool} (h : (Store.create onFile).LeadsDated s) :
    s.tables.IsReadable := by
  induction h with
  | refl => exact Tables.isReadable_empty
  | tail hprefix hstep ih =>
    obtain ⟨q, w, hq, rfl, rfl⟩ := hstep
    exact q.isReadable (LeadsDated.leads hprefix).isTended hq ih

end Store

/-- The requests of which the turns of units are made. -/
def Request.IsOfUnit : Request → Prop
  | operation (.claim _ _) | process _ _ | reap _ _ => True
  | _ => False

namespace WorkerUnit

open Engine

section Turns

variable {R : Store → Store → Prop}
  (hR : ∀ (q : Request) (w : World), q.IsOfUnit → q.IsDated w → R w.store (q.run w).2.store)
include hR

theorem reaches_claimAndProcess (u : WorkerUnit) {now : Int} (hn : ClockTime.inRange now)
    {w : World} (hend : ClockTime.inRange (u.claimAndProcess now w).2.clock) :
    Relation.ReflTransGen R w.store (u.claimAndProcess now w).2.store := by
  have hclaim : R w.store (claimNext u.claimant now w).2.store := by
    have hq := hR (.operation (.claim u.claimant now)) w trivial hn
    rwa [Request.run, store_map, Operation.run, store_map] at hq
  unfold claimAndProcess at hend ⊢
  rw [bind_apply] at hend ⊢
  cases hr : claimNext u.claimant now w with
  | mk result v =>
    rw [hr] at hclaim hend
    cases result with
    | error e => exact .single hclaim
    | ok found =>
      cases found with
      | none => exact .single hclaim
      | some claim =>
        have hinstant : (do u.processSafely claim; return true : Engine Bool) v =
            (u.processSafely claim >>= fun _ => pure true) v := rfl
        have hclock : ((u.processSafely claim >>= fun _ => pure true) v).2.clock =
            (u.processSafely claim v).2.clock := by
          rw [bind_apply]
          cases u.processSafely claim v with
          | mk result v => cases result <;> rfl
        dsimp only at hend ⊢
        rw [hinstant, hclock, clock_processSafely] at hend
        rw [store_bind_of_keeps _ fun _ => .pure true, store_processSafely,
          ← store_map (fun _ => ())]
        exact .tail (.single hclaim) (hR (.process u claim)
          { v with log := v.log.bind (Log.attemptFields claim.attempt) } trivial hend)

/-- A turn of a unit is made of dated requests if the clock is in the calendar when it begins and when
it ends. -/
theorem reaches_runOnce (u : WorkerUnit) {w : World} (hn : ClockTime.inRange w.clock)
    (hend : ClockTime.inRange (u.runOnce w).2.2.clock) :
    Relation.ReflTransGen R w.store (u.runOnce w).2.2.store := by
  have hreap : Relation.ReflTransGen R w.store (u.reapIfDue w.clock w).2.store := by
    unfold reapIfDue
    split
    · rw [store_bind_of_keeps _ fun _ => (keeps_ofExcept _ _).bind fun _ => .pure _,
        ← store_map (fun _ => ()) (u.reap w.clock)]
      exact .single (hR (.reap u w.clock) w trivial hn)
    · exact .refl
  unfold runOnce at hend ⊢
  dsimp only at hend ⊢
  cases hr : u.reapIfDue w.clock w with
  | mk result v =>
    rw [hr] at hreap hend
    cases result with
    | error e => exact hreap
    | ok u' => exact hreap.trans (reaches_claimAndProcess hR u' hn hend)

end Turns

end WorkerUnit

/-! ## Reading back -/

namespace Tables

/-- Nothing that a query selects keeps it from being answered. -/
structure IsLegible (t : Tables) : Prop where
  intact : t.Intact
  readable : t.IsReadable
  bounded : (t.responses.length : Int) ≤ AttemptRow.maxInteger

namespace IsLegible

variable {t : Tables} (h : t.IsLegible)

include h

theorem attempt {r : AttemptRow} (hr : r ∈ t.attempts) : r.IsReadable :=
  ⟨h.readable.times r hr, Int.le_trans (h.readable.retryCounts r hr) h.bounded⟩

theorem subscription {s : Subscription} (hs : s ∈ t.subscriptions) : s.readRow = .ok s :=
  Subscription.readRow_eq_ok (h.readable.subscriptions s hs)

theorem supplies {r : AttemptRow} (hr : r ∈ t.attempts) :
    t.Supplies r.eventId r.subscriptionId := by
  obtain ⟨⟨e, he, hei, -⟩, s, hs, hsi, -⟩ := h.intact.sound.places r hr
  refine ⟨⟨e, ?_, h.readable.events e he⟩, s, ?_, h.subscription hs⟩
  · rw [← hei]
    exact h.intact.catalogued.event?_eq_some he
  · rw [← hsi]
    exact h.intact.catalogued.subscription?_eq_some hs

end IsLegible
end Tables

namespace Engine

variable {α : Type} {p : Data → Prop} {body : Engine α}

theorem Completes.value {value : Data → α} (hc : Completes p body)
    (hm : Meets body fun d x d' => x = value d ∧ d' = d) {w : World}
    (ho : w.store.isOpen = true) (hw : p w.data) : (body w).1 = .ok (value w.data) := by
  obtain ⟨x, hx⟩ := hc w ho hw
  rw [hx, ((hm w).2 x hx).1]

theorem meets_listResponses (id : Uuid) :
    Meets (listResponses id) fun d xs d' => xs = d.tables.responsesOf id ∧ d' = d := by
  refine ((meets_query .response _).bind fun rows =>
    meets_mapM_same meets_readResponse rows).mono ?_
  rintro d x d' ⟨_, _, ⟨rfl, rfl⟩, rfl, rfl⟩
  exact ⟨rfl, rfl⟩

theorem completes_findStale_of_isLegible {before limit : Int} (fits : Fits limit) :
    Completes (fun d => d.tables.IsLegible) (findStale before limit) := by
  refine completes_findStale (fun d hd => hd.intact) fits fun d hd r hr => ?_
  have hm := List.mem_mergeSort.mp (Tables.mem_of_mem_limited hr)
  exact ⟨hd.attempt (List.mem_of_mem_filter hm), hd.supplies (List.mem_of_mem_filter hm)⟩

theorem completes_claimNext_of_isLegible (c : Claimant) {now : Int} (hn : ClockTime.inRange now) :
    Completes (fun d => d.tables.IsLegible) (claimNext c now) := by
  refine completes_claimNext (fun d hd => hd.intact) fun d hd r hr => ?_
  obtain ⟨hm, -, -⟩ := Tables.mem_of_nextClaim? hr
  have hread := hd.attempt hm
  exact ⟨⟨AttemptRow.times_inRange_claimedBy hread.times c hn, hread.retryCount⟩, hd.supplies hm⟩

theorem completes_ingest_of_isLegible (e : Event) (now : Int) :
    Completes (fun d => d.tables.IsLegible) (ingest e now) := by
  refine (completes_ingest e now).weaken fun d hd => ⟨hd.intact, fun f hf => ?_, fun s hs => ?_⟩
  · exact hd.readable.events f (Data.mem_of_event? hf).1
  · exact hd.subscription (Data.mem_subscriptionsOf hs).1

end Engine

theorem Sample.isDated_begin : ∀ o ∈ begin, o.IsDated := by
  intro o ho
  simp only [begin, List.mem_cons, List.not_mem_nil, or_false] at ho
  have hzero : ClockTime.inRange 0 := by decide
  rcases ho with rfl | rfl | rfl
  · exact hzero
  · exact Event.check_eq_ok_iff.mpr (by decide)
  · exact hzero

/-- A subscription that a clock in the west dates in the last hour of the year 9999. -/
def Sample.western : Subscription :=
  { subscription with createdAt := ⟨ClockTime.latest, some (-3600000000)⟩ }

end WebhookDelivery
