import WebhookDelivery.Dispatch
import WebhookDelivery.Proofs.Operations
import WebhookDelivery.Replay

/-!
# WebhookDelivery.Proofs.Routing

What dispatch and replay make of the tables and of the supply of identifiers, as functions on them.

* `Data.ingest`, `Data.replayAll`: the data after an event was submitted or replayed.
* `meets_ingest`, `meets_replay`: the operations do so.
-/

namespace WebhookDelivery

namespace Data

/-- The attempt that is created when an event is fanned out to a subscription. -/
def initialAttempt (d : Data) (e : Event) (now : Int) (s : Subscription) : Attempt :=
  .new (d.ids.next .attempt) e.applicationId e.eventId s.subscriptionId now (max now e.occurredAt)

/-- The row of an attempt that is created by the dispatch of its event. -/
def initialRow (a : Attempt) : AttemptRow :=
  .new a (DispatchKey.initial a.eventId a.subscriptionId).write

def dispatchTo (e : Event) (now : Int) (d : Data) (s : Subscription) : Data :=
  ⟨d.tables.offer (initialRow (d.initialAttempt e now s)), d.ids.advance .attempt⟩

def receivers (d : Data) (e : Event) : List Subscription :=
  Subscription.matching (d.tables.subscriptionsOf e.applicationId true) e

def fanOut (e : Event) (now : Int) (d : Data) : Data :=
  let d := (d.receivers e).foldl (dispatchTo e now) d
  { d with tables := (d.tables.markDispatched e.eventId now).2 }

/-- The data after an event was submitted: a new one is stored and fanned out, a stored one is fanned
out unless that was done before. -/
def ingest (e : Event) (now : Int) (d : Data) : Data :=
  match d.tables.event? e.eventId with
  | none => fanOut e now { d with tables := { d.tables with events := d.tables.events ++ [e] } }
  | some stored => if stored.dispatchedAt.isSome then d else fanOut stored now d

/-- The attempt that is created when an event is replayed to a subscription. -/
def replayAttempt (d : Data) (eventId application : Uuid) (now : Int) (s : Subscription) : Attempt :=
  .new (d.ids.next .attempt) application eventId s.subscriptionId now now

def replayTo (eventId application : Uuid) (now : Int) (d : Data) (s : Subscription) : Data :=
  if (d.tables.openAttempt? eventId s.subscriptionId).isSome then d
  else ⟨d.tables.offer (.new (d.replayAttempt eventId application now s)
    (DispatchKey.replay eventId s.subscriptionId (d.ids.next .replay)).write),
    (d.ids.advance .attempt).advance .replay⟩

/-- The subscriptions to which an event is replayed: the one that is asked for if it is enabled, or
else all that accept the event. -/
def replayTargets? (d : Data) (e : Event) (application : Uuid) :
    (subscription : Option Uuid) → Option (List Subscription)
  | some id =>
    ((Engine.inScope application Subscription.applicationId (d.tables.subscription? id)).filter
      (·.isEnabled)).map fun s => [s]
  | none => some (Subscription.matching (d.tables.subscriptionsOf application true) e)

def replayAll (eventId application : Uuid) (now : Int) (d : Data) (targets : List Subscription) :
    Data :=
  targets.foldl (replayTo eventId application now) d

end Data

namespace Engine

/-- Offering attempts in turn adds those that are new, in their order. -/
theorem meets_createAttempts (e : Event) (now : Int) (targets : List Subscription) :
    Meets (createAttempts e now (max now e.occurredAt) targets) fun d created d' =>
      d' = targets.foldl (Data.dispatchTo e now) d ∧
      d'.tables.attempts = d.tables.attempts ++ created.map Data.initialRow := by
  induction targets with
  | nil =>
    refine (Meets.pure []).mono ?_
    rintro d x d' ⟨rfl, rfl⟩
    exact ⟨rfl, by simp⟩
  | cons s rest ih =>
    refine ((meets_drawId .attempt).bind fun id => (meets_insertAttempt _ _).bind fun isNew =>
      ih.bind fun more => .pure _).mono ?_
    rintro d x d' ⟨id, _, ⟨rfl, rfl⟩, isNew, _, ⟨rfl, rfl⟩, more, _, ⟨rfl, hm⟩, rfl, rfl⟩
    refine ⟨rfl, ?_⟩
    rw [hm]
    by_cases ht : d.tables.isTaken (Data.initialRow (d.initialAttempt e now s))
    · simp_all [Tables.offer, Data.initialRow, Data.initialAttempt, Attempt.new]
    · simp_all [Tables.offer, Data.initialRow, Data.initialAttempt, Attempt.new]

/-- The event to fan out, and the data with it stored. -/
theorem meets_undispatchedEvent? (e : Event) :
    Meets (undispatchedEvent? e) fun d x d' => d'.ids = d.ids ∧
      match d.tables.event? e.eventId with
      | none => x = some e ∧ d'.tables = { d.tables with events := d.tables.events ++ [e] }
      | some stored =>
        x = (if stored.dispatchedAt.isSome then none else some stored) ∧ d'.tables = d.tables := by
  unfold undispatchedEvent?
  refine ((meets_insertEvent e).bind
    (q := fun isNew d x d' => if isNew then x = some e ∧ d' = d
      else x = ((d.tables.event? e.eventId).bind fun s =>
        if s.dispatchedAt.isSome then none else some s) ∧ d' = d) fun isNew => ?_).mono ?_
  · cases isNew with
    | true => exact .pure _
    | false =>
      refine ((meets_getEvent _ _).bind (q := fun row d x d' => x = (row.bind fun s =>
        if s.dispatchedAt.isSome then none else some s) ∧ d' = d) fun row => ?_).mono ?_
      · cases row with
        | none => exact .pure _
        | some s => exact .pure _
      · rintro d x d' ⟨_, _, ⟨rfl, rfl⟩, h⟩
        simpa [inScope_none] using h
  · rintro d x d' ⟨isNew, d₁, ⟨ht, hi⟩, h⟩
    unfold Tables.insertEvent at ht
    cases hs : d.tables.event? e.eventId with
    | none =>
      simp only [hs, Option.isSome_none, Bool.false_eq_true, if_false, Prod.mk.injEq] at ht
      obtain ⟨rfl, ht⟩ := ht
      obtain ⟨rfl, rfl⟩ := by simpa using h
      exact ⟨hi, rfl, ht⟩
    | some stored =>
      simp only [hs, Option.isSome_some, if_true, Prod.mk.injEq] at ht
      obtain ⟨rfl, ht⟩ := ht
      simp only [Bool.false_eq_true, if_false, ht, hs, Option.bind_some] at h
      obtain ⟨rfl, rfl⟩ := h
      exact ⟨hi, rfl, ht⟩

/-- The transaction of a submission: the event as it is stored is fanned out once, and what is created
is what is added. -/
theorem meets_route (e : Event) (now : Int) :
    Meets (do
      match ← undispatchedEvent? e with
      | none => return none
      | some event =>
        let subscriptions ← listSubscriptions event.applicationId true
        let matched := Subscription.matching subscriptions event
        let created ← createAttempts event now (max now event.occurredAt) matched
        let _ ← markDispatched event.eventId now
        return some (event, matched, created)) fun d r d' => d' = d.ingest e now ∧
      d'.tables.attempts = d.tables.attempts ++ ((r.map (·.2.2)).getD []).map Data.initialRow := by
  refine ((meets_undispatchedEvent? e).bind (q := fun x d r d' => match x with
      | none => r = none ∧ d' = d
      | some e => ∃ matched created, r = some (e, matched, created) ∧ d' = Data.fanOut e now d ∧
        d'.tables.attempts = d.tables.attempts ++ created.map Data.initialRow) fun x => ?_).mono ?_
  · cases x with
    | none => exact .pure _
    | some e =>
      refine ((meets_listSubscriptions _ _).bind fun subscriptions =>
        (meets_createAttempts e now _).bind fun created =>
        (meets_markDispatched _ _).bind fun _ => .pure _).mono ?_
      rintro _ r d' ⟨_, d, ⟨rfl, rfl⟩, created, _, ⟨rfl, ha⟩, _, _, ⟨hm, hi⟩, rfl, rfl⟩
      have ht : d' = Data.fanOut e now d := Data.ext (congrArg Prod.snd hm) hi
      exact ⟨_, created, rfl, ht, by rw [ht]; exact ha⟩
  · rintro d r d₂ ⟨x, d₁, ⟨hi, hx⟩, hr⟩
    unfold Data.ingest
    cases hs : d.tables.event? e.eventId with
    | none =>
      rw [hs] at hx
      obtain ⟨rfl, ht⟩ := hx
      obtain ⟨matched, created, rfl, rfl, ha⟩ := hr
      have hd : d₁ = { d with tables := { d.tables with events := d.tables.events ++ [e] } } :=
        Data.ext ht hi
      exact ⟨by rw [hd], by simpa [ht] using ha⟩
    | some stored =>
      rw [hs] at hx
      obtain ⟨rfl, ht⟩ := hx
      obtain rfl : d₁ = d := Data.ext ht hi
      cases hp : stored.dispatchedAt.isSome with
      | true =>
        simp only [hp, if_true] at hr
        obtain ⟨rfl, rfl⟩ := hr
        exact ⟨by simp [hp], by simp⟩
      | false =>
        simp only [hp, Bool.false_eq_true, if_false] at hr
        obtain ⟨matched, created, rfl, rfl, ha⟩ := hr
        exact ⟨by simp [hp], ha⟩

/-- An event is fanned out once, and what is created is what is added. -/
theorem meets_ingest (e : Event) (now : Int) :
    Meets (ingest e now) fun d created d' => d' = d.ingest e now ∧
      d'.tables.attempts = d.tables.attempts ++ created.map Data.initialRow := by
  refine ((meets_route e now).atomically.bind
    (q := fun r d created d' => created = (r.map (·.2.2)).getD [] ∧ d' = d) fun r => ?_).mono ?_
  · cases r with
    | none => exact .pure _
    | some p =>
      refine ((meets_log _ _ _ _).bind fun _ => .pure p.2.2).mono ?_
      rintro d x d' ⟨_, _, rfl, rfl, rfl⟩
      exact ⟨rfl, rfl⟩
  · rintro d created d' ⟨r, _, h, rfl, rfl⟩
    exact h

/-! ## Replay -/

/-- A target that has an open attempt is left alone. -/
theorem meets_replayTo (eventId application : Uuid) (now : Int) (s : Subscription) :
    Meets (replayTo eventId application now s) fun d a d' =>
      d' = d.replayTo eventId application now s ∧
      (d.tables.openAttempt? eventId s.subscriptionId = none →
        a = d.replayAttempt eventId application now s) ∧
      ∀ r, d.tables.openAttempt? eventId s.subscriptionId = some r → r.read = .ok a := by
  unfold replayTo
  refine ((meets_findOpenAttempt _ _).bind (q := fun found d a d' =>
    (∀ existing, found = some existing → a = existing ∧ d' = d) ∧
    (found = none → a = d.replayAttempt eventId application now s ∧
      d' = ⟨d.tables.offer (.new (d.replayAttempt eventId application now s)
        (DispatchKey.replay eventId s.subscriptionId (d.ids.next .replay)).write),
        (d.ids.advance .attempt).advance .replay⟩)) fun found => ?_).mono ?_
  · cases found with
    | some existing =>
      refine (Meets.pure existing).mono ?_
      rintro d a d' ⟨rfl, rfl⟩
      simp
    | none =>
      refine ((meets_drawId .attempt).bind fun id => (meets_drawId .replay).bind fun draw =>
        (meets_insertAttempt _ _).bind fun _ => .pure _).mono ?_
      rintro d a d' ⟨id, _, ⟨rfl, rfl⟩, draw, _, ⟨rfl, rfl⟩, _, _, ⟨rfl, rfl⟩, rfl, rfl⟩
      exact ⟨by simp, fun _ => ⟨rfl, rfl⟩⟩
  · rintro _ a d' ⟨found, d, ⟨hf, rfl⟩, hsome, hnone⟩
    unfold Data.replayTo
    cases ho : d.tables.openAttempt? eventId s.subscriptionId with
    | none =>
      rw [ho] at hf
      obtain ⟨ha, hd⟩ := hnone hf
      exact ⟨hd, fun _ => ha, by simp⟩
    | some r =>
      rw [ho] at hf
      obtain ⟨b, hb, hfound⟩ := hf
      obtain ⟨rfl, hd⟩ := hsome b hfound
      refine ⟨hd, by simp, fun x hx => ?_⟩
      rw [← Option.some.inj hx]
      exact hb

theorem meets_replayTargets (e : Event) (application : Uuid) (subscription : Option Uuid) :
    Meets (replayTargets e application subscription) fun d targets d' =>
      d.replayTargets? e application subscription = some targets ∧ d' = d := by
  cases subscription with
  | none =>
    refine ((meets_listSubscriptions _ _).bind fun subscriptions => .pure _).mono ?_
    rintro _ targets d' ⟨_, d, ⟨rfl, rfl⟩, rfl, rfl⟩
    exact ⟨rfl, rfl⟩
  | some id =>
    refine ((meets_getSubscription _ _).bind (q := fun found d targets d' =>
      (found.filter (·.isEnabled)).map (fun s => [s]) = some targets ∧ d' = d) fun found => ?_).mono ?_
    · cases found with
      | none => exact .throw _ _
      | some s =>
        cases hs : s.isEnabled with
        | true =>
          simp only [hs, if_true]
          refine (Meets.pure [s]).mono ?_
          rintro d targets d' ⟨rfl, rfl⟩
          simp [hs]
        | false =>
          simp only [hs, Bool.false_eq_true, if_false]
          exact .throw _ _
    · rintro _ targets d' ⟨_, d, ⟨rfl, rfl⟩, h⟩
      exact h

theorem meets_mapM_replayTo (eventId application : Uuid) (now : Int) (targets : List Subscription) :
    Meets (targets.mapM (replayTo eventId application now)) fun d _ d' =>
      d' = d.replayAll eventId application now targets := by
  induction targets with
  | nil => exact (Meets.pure []).mono fun _ _ _ h => h.2
  | cons s rest ih =>
    rw [List.mapM_cons]
    refine ((meets_replayTo _ _ _ s).bind fun a => ih.bind fun more => .pure (a :: more)).mono ?_
    rintro d _ d' ⟨a, _, ⟨rfl, -⟩, more, _, rfl, rfl, rfl⟩
    rfl

theorem meets_replay (eventId application : Uuid) (subscription : Option Uuid) (now : Int) :
    Meets (replay eventId application subscription now) fun d _ d' => ∃ e targets,
      inScope application Event.applicationId (d.tables.event? eventId) = some e ∧
      d.replayTargets? e application subscription = some targets ∧
      d' = d.replayAll eventId application now targets := by
  unfold replay
  refine ((Meets.atomically ((meets_getEvent _ _).bind (q := fun found d _ d' => ∃ e targets,
    found = some e ∧ d.replayTargets? e application subscription = some targets ∧
      d' = d.replayAll eventId application now targets) fun found => ?_)).bind
    (q := fun _ d _ d' => d' = d) fun attempts => ?_).mono ?_
  · cases found with
    | none => exact .throw _ _
    | some e =>
      refine ((meets_replayTargets _ _ _).bind fun targets =>
        meets_mapM_replayTo eventId application now targets).mono ?_
      rintro _ attempts d' ⟨targets, d, ⟨ht, rfl⟩, h⟩
      exact ⟨e, targets, rfl, ht, h⟩
  · refine ((meets_log _ _ _ _).bind fun _ => .pure attempts).mono ?_
    rintro _ x d' ⟨_, d, rfl, rfl, rfl⟩
    rfl
  · rintro d x d' ⟨attempts, _, ⟨_, _, ⟨rfl, rfl⟩, h⟩, rfl⟩
    exact h

end Engine
end WebhookDelivery
