import WebhookDelivery.Proofs.Integrity
import WebhookDelivery.Proofs.Statuses

/-!
# WebhookDelivery.Proofs.Grounding

Stores in which every attempt has its event and its subscription, and what the queries give there,
with the rows that cannot be read back.

* `Store.IsGrounded`, `Strays.isGrounded`: attempts have their events and subscriptions wherever
  requests, changes of rows and insertions of attempts lead.
* `query_apply`: a query of an open connection gives what the tables hold and changes nothing.
* `getEvent_apply` and the like: a row is read after it was found, and reading it may fail.
-/

namespace WebhookDelivery

/-! ## References -/

namespace Tables

variable {t t' : Tables}

theorem Registers.delivers {event subscription : Uuid} (h : t.Registers t')
    (hd : t.Delivers event subscription) : t'.Delivers event subscription := by
  obtain ⟨hevent, hsubscription⟩ := hd
  rw [event?, List.find?_isSome] at hevent
  rw [subscription?, List.find?_isSome] at hsubscription
  obtain ⟨e, he, hei⟩ := hevent
  obtain ⟨s, hs, hsi⟩ := hsubscription
  obtain ⟨e', he', hei', -⟩ := h.events e he
  obtain ⟨s', hs', hsi', -⟩ := h.subscriptions s hs
  constructor
  · rw [event?, List.find?_isSome]
    exact ⟨e', he', by rwa [hei']⟩
  · rw [subscription?, List.find?_isSome]
    exact ⟨s', hs', by rwa [hsi']⟩

/-- Every attempt has its event and its subscription. -/
def IsGrounded (t : Tables) : Prop :=
  ∀ r ∈ t.attempts, t.Delivers r.eventId r.subscriptionId

theorem isGrounded_of_map (he : t'.events = t.events) (hs : t'.subscriptions = t.subscriptions)
    (h : t.IsGrounded) (hr : ∀ r' ∈ t'.attempts, ∃ r ∈ t.attempts,
      r'.eventId = r.eventId ∧ r'.subscriptionId = r.subscriptionId) : t'.IsGrounded := by
  intro r' hr'
  obtain ⟨r, hmem, hevent, hsubscription⟩ := hr r' hr'
  rw [hevent, hsubscription]
  exact (h r hmem).congr he hs

theorem isGrounded_concat {r : AttemptRow} (h : t.IsGrounded)
    (hr : t.Delivers r.eventId r.subscriptionId) :
    IsGrounded { t with attempts := t.attempts ++ [r] } := by
  intro x hx
  rcases List.mem_append.mp hx with hx | hx
  · exact (h x hx).congr rfl rfl
  · rw [List.mem_singleton.mp hx]
    exact hr.congr rfl rfl

theorem isGrounded_offer {r : AttemptRow} (h : t.IsGrounded)
    (hr : t.Delivers r.eventId r.subscriptionId) : (t.offer r).IsGrounded := by
  unfold Tables.offer
  split
  · exact h
  · exact isGrounded_concat h hr

theorem Change.isGrounded {ends : Ending → Prop} (h : Change ends t t') (hi : t.Indexed)
    (ht : t.IsGrounded) : t'.IsGrounded := by
  cases h with
  | edit h =>
    cases h with
    | register h =>
      intro r hr
      rw [h.attempts] at hr
      exact h.delivers (ht r hr)
    | claim c now =>
      obtain ⟨he, hs, -⟩ := t.claim_frame c now
      refine isGrounded_of_map he hs ht fun r' hr' => ?_
      unfold Tables.claim at hr'
      split at hr'
      · exact ⟨r', hr', rfl, rfl⟩
      · obtain ⟨r, hr, rfl⟩ := mem_updateRows.mp hr'
        refine ⟨r, hr, ?_⟩
        split <;> exact ⟨rfl, rfl⟩
    | finish e _ _ h =>
      obtain rfl := finish?_eq_ok hi.referencesUnchecked h
      refine isGrounded_of_map (t := t) rfl rfl ht fun r' hr' => ?_
      obtain ⟨r, hr, rfl⟩ := mem_updateRows.mp hr'
      refine ⟨r, hr, ?_⟩
      split
      · cases e.outcome <;> exact ⟨rfl, rfl⟩
      · exact ⟨rfl, rfl⟩
  | offer r _ places => exact isGrounded_offer ht places.delivers

/-- References are checked when a row is edited. -/
theorem delivers_of_checkEdited (hu : t.referencesUnchecked = false) {old new : AttemptRow}
    (h : t.checkEdited old new = .ok ()) (hold : t.Delivers old.eventId old.subscriptionId) :
    t.Delivers new.eventId new.subscriptionId := by
  unfold checkEdited at h
  simp only [hu, Bool.false_eq_true, if_false] at h
  repeat' split at h
  all_goals try cases h
  rename_i hevent hsubscription _
  constructor
  · by_cases he : new.eventId = old.eventId
    · rw [he]
      exact hold.event
    · cases hfound : t.event? new.eventId with
      | none => exact absurd ⟨he, by simp [hfound]⟩ hevent
      | some e => rfl
  · by_cases hs : new.subscriptionId = old.subscriptionId
    · rw [hs]
      exact hold.subscription
    · cases hfound : t.subscription? new.subscriptionId with
      | none => exact absurd ⟨hs, by simp [hfound]⟩ hsubscription
      | some s => rfl

theorem isGrounded_of_editAttempt (hu : t.referencesUnchecked = false) {id : Uuid}
    {edit : AttemptRow.Edit} {n : Nat} (h : t.editAttempt id edit = .ok (n, t'))
    (ht : t.IsGrounded) : t'.IsGrounded := by
  unfold editAttempt at h
  split at h
  · cases h
    exact ht
  · rename_i old hold
    split at h
    · cases h
    · rename_i new hnew
      split at h
      · cases h
      · rename_i hc
        cases h
        intro r hr
        obtain ⟨x, hx, rfl⟩ := List.mem_map.mp hr
        have hdelivers := delivers_of_checkEdited hu hc (ht old (List.mem_of_find?_eq_some hold))
        split
        · exact hdelivers.congr rfl rfl
        · exact (ht x hx).congr rfl rfl

theorem isGrounded_of_insertAttempt (hu : t.referencesUnchecked = false) {r : AttemptRow}
    {isNew : Bool} (h : t.insertAttempt r = .ok (isNew, t')) (ht : t.IsGrounded) :
    t'.IsGrounded := by
  unfold insertAttempt at h
  split at h
  · cases h
    exact ht
  · split at h
    · cases h
    · rename_i hchecked
      cases h
      refine isGrounded_concat ht ?_
      rw [hu] at hchecked
      constructor
      · cases he : t.event? r.eventId <;> simp_all
      · cases hs : t.subscription? r.subscriptionId <;> simp_all

end Tables

/-! ## Stores -/

namespace Store

structure IsGrounded (s : Store) : Prop extends IsCoherent s where
  catalogued : s.tables.Catalogued
  grounded : s.tables.IsGrounded

theorem isGrounded_create (onFile : Bool) : (create onFile).IsGrounded where
  toIsCoherent := isCoherent_create onFile
  catalogued := Tables.catalogued_empty
  grounded := fun _ h => absurd h List.not_mem_nil

variable {s t : Store}

theorem Asks.isGrounded (h : s.Asks t) (hs : s.IsGrounded) : t.IsGrounded := by
  refine { toIsCoherent := h.isCoherent hs.toIsCoherent, catalogued := ?_, grounded := ?_ }
  all_goals
    obtain ⟨q, w, rfl, rfl⟩ := h
    have hinv := (q.changes hs.idle).invariant
      (I := fun t => t.Indexed ∧ t.Catalogued ∧ t.IsGrounded)
      ⟨hs.indexed, hs.catalogued, hs.grounded⟩ fun _ _ hc ht =>
        ⟨hc.indexed ht.1, hc.catalogued ht.1 ht.2.1, hc.isGrounded ht.1 ht.2.2⟩
  · exact hinv.2.1
  · exact hinv.2.2

theorem Tampers.isGrounded (h : s.Tampers t) (hs : s.IsGrounded) : t.IsGrounded := by
  have hcoherent := h.isCoherent hs.toIsCoherent
  obtain ⟨-, heq | ⟨id, edit, n, he⟩⟩ := h.tables hs.idle
  · exact ⟨hcoherent, heq ▸ hs.catalogued, heq ▸ hs.grounded⟩
  · obtain ⟨hevents, hsubscriptions⟩ := Tables.editAttempt_frame he
    exact ⟨hcoherent, hs.catalogued.congr hevents hsubscriptions,
      Tables.isGrounded_of_editAttempt hs.indexed.referencesUnchecked he hs.grounded⟩

theorem Inserts.isGrounded (h : s.Inserts t) (hs : s.IsGrounded) : t.IsGrounded := by
  have hcoherent := h.isCoherent hs.toIsCoherent
  obtain ⟨-, heq | ⟨a, key, isNew, hn⟩⟩ := h.tables hs.idle
  · exact ⟨hcoherent, heq ▸ hs.catalogued, heq ▸ hs.grounded⟩
  · have hoffer := (Tables.insertAttempt_eq_ok hn).1
    obtain ⟨hevents, hsubscriptions, -⟩ := s.tables.offer_frame (.new a key)
    exact ⟨hcoherent, hoffer ▸ hs.catalogued.congr hevents hsubscriptions,
      Tables.isGrounded_of_insertAttempt hs.indexed.referencesUnchecked hn hs.grounded⟩

theorem Strays.isGrounded (h : s.Strays t) (hs : s.IsGrounded) : t.IsGrounded := by
  induction h with
  | refl => exact hs
  | tail _ hstep ih =>
    rcases hstep with h | h | h
    · exact h.isGrounded ih
    · exact h.isGrounded ih
    · exact h.isGrounded ih

end Store

/-! ## Queries -/

namespace Engine

variable {α β ε : Type}

/-- A transaction is settled when its body ends. -/
theorem atomically_begun {body : Engine α} {w v : World} {r : Except OperationError α}
    (ho : w.store.isOpen = true) (ht : w.store.inTransaction = false)
    (hb : body { w with store := { w.store with inTransaction := true } } = (r, v)) :
    atomically body w = settle w.store.tables r v := by
  unfold atomically
  rw [if_neg (by simp [ho]), if_neg (by simp [ht]), hb]

/-- A query of an open connection gives what the tables hold and changes nothing. -/
theorem query_apply {w : World} (ho : w.store.isOpen = true) (hl : w.store.tables.lost = [])
    (name : TableName) (query : Tables → α) :
    (atomically do touch name; return query (← tables)) w =
      (.ok (query w.store.tables), w) := by
  have hbody : ∀ v : World, v.store.tables = w.store.tables →
      (do touch name; return query (← tables) : Engine α) v =
        (.ok (query w.store.tables), v) := by
    intro v hv
    rw [bind_apply, touch_apply (hv ▸ hl), ← hv]
    rfl
  by_cases ht : w.store.inTransaction = true
  · unfold atomically
    rw [if_neg (by simp [ho]), if_pos ht, hbody w rfl]
  · rw [Bool.not_eq_true] at ht
    rw [atomically_apply ho ht (hbody _ rfl) (Tables.keepsReferences_self _), ← ht]

theorem readRow_apply (wrap : ε → OperationError) (read : α → Except ε β) (row : Option α)
    (w : World) : readRow (fun x => ofExcept wrap (read x)) row w =
      ((row.mapM read).mapError wrap, w) := by
  cases row with
  | none => rfl
  | some a =>
    rw [readRow, map_apply, Option.mapM_some]
    cases read a <;> rfl

variable {w : World} (ho : w.store.isOpen = true) (hl : w.store.tables.lost = [])
include ho hl

theorem getEvent_apply (id : Uuid) (scope : Option Uuid) : getEvent id scope w =
    (((inScope scope Event.applicationId (w.store.tables.event? id)).mapM Event.check).mapError
      .record, w) := by
  unfold getEvent
  rw [bind_apply, query_apply ho hl]
  exact readRow_apply _ _ _ _

theorem getSubscription_apply (id : Uuid) (scope : Option Uuid) : getSubscription id scope w =
    (((inScope scope Subscription.applicationId (w.store.tables.subscription? id)).mapM
      Subscription.readRow).mapError .record, w) := by
  unfold getSubscription
  rw [bind_apply, query_apply ho hl]
  exact readRow_apply _ _ _ _

theorem listSubscriptions_apply (application : Uuid) (enabledOnly : Bool) :
    listSubscriptions application enabledOnly w =
      (((w.store.tables.subscriptionsOf application enabledOnly).mapM
        Subscription.readRow).mapError .record, w) := by
  unfold listSubscriptions
  rw [bind_apply, query_apply ho hl]
  exact mapM_ofExcept_apply _ _ _ _

theorem findOpenAttempt_apply (event subscription : Uuid) : findOpenAttempt event subscription w =
    (((w.store.tables.openAttempt? event subscription).mapM AttemptRow.read).mapError .record,
      w) := by
  unfold findOpenAttempt
  rw [bind_apply, query_apply ho hl]
  exact readRow_apply _ _ _ _

end Engine

end WebhookDelivery
