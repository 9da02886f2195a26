import Mathlib.Data.List.Nodup
import Mathlib.Logic.Relation
import WebhookDelivery.Proofs.Operations

/-!
# WebhookDelivery.Proofs.Tables

The changes of which all that happens to the tables is made, and what they keep.

* `Tables.Edit`, `Tables.Change`: an edit of the rows that are there, and an edit or a new attempt.
  Which claims may end, and how, is a parameter.
* `Tables.Indexed`, `Tables.Sound`: identifiers are unique, and references lead to rows of the same
  application; `Change.indexed` and `Change.sound` say that every change keeps this.
* `Change.attempts`: a change adds a fresh attempt or lets each attempt evolve, which is to leave it
  as it is, to claim it when it is free, or to end the claim under which it is held.
-/

namespace WebhookDelivery

/-- What tells a claim from others: its attempt, the time at which it was picked, and the name of
the worker. -/
structure ClaimToken where
  attemptId : Uuid
  pickedAt : Int
  worker : Option String
  deriving DecidableEq, Repr

/-- The row is held under the claim. -/
def ClaimToken.holds (k : ClaimToken) (r : AttemptRow) : Bool :=
  r.holdsClaim k.attemptId k.pickedAt k.worker

/-- The claim under which an attempt was handed out, if it was picked. -/
def Attempt.token? (a : Attempt) : Option ClaimToken :=
  a.pickedAt.map fun time => ⟨a.attemptId, time.micros, a.workerName⟩

theorem ClockTime.micros_utc (micros : Int) : (utc micros).micros = micros := by
  simp [ClockTime.micros, utc]

theorem AttemptRow.token?_read {r : AttemptRow} {a : Attempt} (h : r.read = .ok a) :
    a.token? = r.pickedAt.map fun time => ⟨r.attemptId, time, r.workerName⟩ := by
  obtain ⟨hi, -, -, -, hp, -, hw⟩ := read_eq_ok h
  rw [Attempt.token?, hp, hi, hw, Option.map_map]
  cases r.pickedAt with
  | none => rfl
  | some time => simp [ClockTime.micros_utc]

/-- How a claim ends. -/
structure Ending where
  token : ClaimToken
  outcome : Outcome
  response : Response

namespace ClaimToken

theorem holds_iff {k : ClaimToken} {r : AttemptRow} : k.holds r ↔
    r.attemptId = k.attemptId ∧ r.pickedAt = some k.pickedAt ∧ r.workerName = k.worker ∧ r.isOpen := by
  simp [holds, AttemptRow.holdsClaim, and_assoc]

end ClaimToken

namespace AttemptRow

/-- As a row is when it is inserted: neither picked nor ended, and without an execution. -/
structure IsFresh (r : AttemptRow) : Prop where
  pickedAt : r.pickedAt = none
  succeededAt : r.succeededAt = none
  failedAt : r.failedAt = none
  retryCount : r.retryCount = 0
  responseId : r.responseId = none
  workerName : r.workerName = none
  workerVersion : r.workerVersion = none

theorem IsFresh.isOpen {r : AttemptRow} (h : r.IsFresh) : r.isOpen := by
  simp [AttemptRow.isOpen, h.succeededAt, h.failedAt]

theorem isFresh_new (id application eventId subscription : Uuid) (now due : Int) (key : String) :
    (new (.new id application eventId subscription now due) key).IsFresh :=
  ⟨rfl, rfl, rfl, rfl, rfl, rfl, rfl⟩

/-- What becomes of a row that stays: the claims that end are among those of `ends`. -/
inductive Evolves (ends : Ending → Prop) (r : AttemptRow) : AttemptRow → Prop
  | same : Evolves ends r r
  | claimed (c : Claimant) (now : Int) (free : r.isFree) (due : r.isDue now) :
      Evolves ends r (r.claimedBy c now)
  | ended (e : Ending) (held : e.token.holds r) (he : ends e) :
      Evolves ends r (e.outcome.apply e.response.responseId r)

end AttemptRow

/-- An outcome changes no column but those of the claim, the end and the executions. -/
theorem Outcome.apply_frame (o : Outcome) (responseId : Uuid) (r : AttemptRow) :
    (o.apply responseId r).attemptId = r.attemptId ∧
    (o.apply responseId r).applicationId = r.applicationId ∧
    (o.apply responseId r).eventId = r.eventId ∧
    (o.apply responseId r).subscriptionId = r.subscriptionId ∧
    (o.apply responseId r).dispatchKey = r.dispatchKey := by
  cases o <;> exact ⟨rfl, rfl, rfl, rfl, rfl⟩

/-- Only a retry leaves an attempt open. -/
theorem Outcome.eq_retried_of_isOpen {o : Outcome} {responseId : Uuid} {r : AttemptRow}
    (h : (o.apply responseId r).isOpen) : ∃ due, o = .retried due := by
  cases o with
  | succeeded time => simp [Outcome.apply, AttemptRow.isOpen] at h
  | retried due => exact ⟨due, rfl⟩
  | failed time => simp [Outcome.apply, AttemptRow.isOpen] at h

namespace AttemptRow.Evolves

variable {ends : Ending → Prop} {r r' : AttemptRow}

/-- An attempt stays what it is, whatever becomes of it. -/
theorem frame (h : r.Evolves ends r') : r'.attemptId = r.attemptId ∧
    r'.applicationId = r.applicationId ∧ r'.eventId = r.eventId ∧
    r'.subscriptionId = r.subscriptionId ∧ r'.dispatchKey = r.dispatchKey := by
  cases h with
  | same => exact ⟨rfl, rfl, rfl, rfl, rfl⟩
  | claimed c now _ _ => exact ⟨rfl, rfl, rfl, rfl, rfl⟩
  | ended e _ _ => exact e.outcome.apply_frame _ r

theorem isOpen (h : r.Evolves ends r') (ho : r'.isOpen) : r.isOpen := by
  cases h with
  | same => exact ho
  | claimed c now _ _ => exact ho
  | ended e held _ => exact (ClaimToken.holds_iff.mp held).2.2.2

end AttemptRow.Evolves

namespace Tables

/-! ## Rows -/

theorem mem_updateRows {α : Type} {select : α → Bool} {change : α → α} {rows : List α} {x : α} :
    x ∈ updateRows select change rows ↔ ∃ r ∈ rows, (if select r then change r else r) = x := by
  simp [updateRows]

/-- A column that the change of a selected row keeps is kept in all rows. -/
theorem map_updateRows {α β : Type} {f : α → β} {select : α → Bool} {change : α → α}
    (h : ∀ r, select r → f (change r) = f r) (rows : List α) :
    (updateRows select change rows).map f = rows.map f := by
  unfold updateRows
  rw [List.map_map]
  refine List.map_congr_left fun r _ => ?_
  simp only [Function.comp]
  split
  · rename_i hs
    exact h r hs
  · rfl

theorem nodup_map_updateRows {α β : Type} {f : α → β} {select : α → Bool} {change : α → α}
    (h : ∀ r, select r → f (change r) = f r) {rows : List α} (hr : (rows.map f).Nodup) :
    ((updateRows select change rows).map f).Nodup := by
  rw [map_updateRows h]
  exact hr

theorem mem_of_nextClaim? {t : Tables} {c : Claimant} {now : Int} {r : AttemptRow}
    (h : t.nextClaim? c now = some r) :
    r ∈ t.attempts ∧ r.isFree ∧ r.isDue now := by
  obtain ⟨hr, hc⟩ := List.mem_filter.mp (mem_of_least? h)
  simp only [isClaimable, Bool.and_eq_true] at hc
  exact ⟨hr, hc.1.1, hc.1.2⟩

/-! ## Changes -/

/-- Only events and subscriptions change. Those that are there keep their identifier and their
application, those that are new have new identifiers, and an event that was dispatched remains so. -/
structure Registers (t t' : Tables) : Prop where
  attempts : t'.attempts = t.attempts
  responses : t'.responses = t.responses
  lost : t'.lost = t.lost
  referencesUnchecked : t'.referencesUnchecked = t.referencesUnchecked
  events : ∀ e ∈ t.events, ∃ e' ∈ t'.events,
    e'.eventId = e.eventId ∧ e'.applicationId = e.applicationId
  subscriptions : ∀ s ∈ t.subscriptions, ∃ s' ∈ t'.subscriptions,
    s'.subscriptionId = s.subscriptionId ∧ s'.applicationId = s.applicationId
  dispatched : ∀ e' ∈ t'.events, (∀ e ∈ t.events, e.eventId ≠ e'.eventId) ∨
    ∃ e ∈ t.events, e.eventId = e'.eventId ∧ (e.dispatchedAt.isSome → e'.dispatchedAt.isSome)
  eventIds : (t.events.map (·.eventId)).Nodup → (t'.events.map (·.eventId)).Nodup
  subscriptionIds : (t.subscriptions.map (·.subscriptionId)).Nodup →
    (t'.subscriptions.map (·.subscriptionId)).Nodup

/-- An event and a subscription are there, and both are of an application. -/
structure Places (t : Tables) (application event subscription : Uuid) : Prop where
  event : ∃ e ∈ t.events, e.eventId = event ∧ e.applicationId = application
  subscription : ∃ s ∈ t.subscriptions,
    s.subscriptionId = subscription ∧ s.applicationId = application

theorem Places.congr {t t' : Tables} {application event subscription : Uuid}
    (h : t.Places application event subscription) (he : t'.events = t.events)
    (hs : t'.subscriptions = t.subscriptions) : t'.Places application event subscription :=
  ⟨he ▸ h.event, hs ▸ h.subscription⟩

theorem Registers.places {t t' : Tables} {application event subscription : Uuid}
    (h : t.Registers t') (hp : t.Places application event subscription) :
    t'.Places application event subscription := by
  obtain ⟨e, he, hei, hea⟩ := hp.event
  obtain ⟨s, hs, hsi, hsa⟩ := hp.subscription
  obtain ⟨e', he', hei', hea'⟩ := h.events e he
  obtain ⟨s', hs', hsi', hsa'⟩ := h.subscriptions s hs
  exact ⟨⟨e', he', hei'.trans hei, hea'.trans hea⟩, ⟨s', hs', hsi'.trans hsi, hsa'.trans hsa⟩⟩

/-- Where the events are left alone, only subscriptions matter. -/
theorem Registers.of_subscriptions {t : Tables} {subscriptions : List Subscription}
    (h : ∀ s ∈ t.subscriptions, ∃ s' ∈ subscriptions,
      s'.subscriptionId = s.subscriptionId ∧ s'.applicationId = s.applicationId)
    (ids : (t.subscriptions.map (·.subscriptionId)).Nodup →
      (subscriptions.map (·.subscriptionId)).Nodup) :
    t.Registers { t with subscriptions := subscriptions } :=
  ⟨rfl, rfl, rfl, rfl, fun e he => ⟨e, he, rfl, rfl⟩, h, fun e he => .inr ⟨e, he, rfl, id⟩, id, ids⟩

theorem Registers.refl (t : Tables) : t.Registers t :=
  .of_subscriptions (fun s hs => ⟨s, hs, rfl, rfl⟩) id

/-- A row with a new value in a column leaves the values of that column unique. -/
theorem nodup_map_concat {α β : Type} {f : α → β} {rows : List α} {x : α}
    (h : (rows.map f).Nodup) (hx : ∀ r ∈ rows, f r ≠ f x) : ((rows ++ [x]).map f).Nodup := by
  rw [List.map_append, List.nodup_append]
  refine ⟨h, by simp, ?_⟩
  simp only [List.map_cons, List.map_nil, List.mem_singleton, List.mem_map]
  rintro _ ⟨r, hr, rfl⟩ _ rfl
  exact hx r hr

theorem registers_insertEvent (t : Tables) (e : Event) : t.Registers (t.insertEvent e).2 := by
  unfold insertEvent
  split
  · exact .refl t
  · rename_i hn
    refine ⟨rfl, rfl, rfl, rfl, fun x hx => ⟨x, List.mem_append_left _ hx, rfl, rfl⟩,
      fun s hs => ⟨s, hs, rfl, rfl⟩, fun x hx => ?_, fun h => ?_, id⟩
    · rcases List.mem_append.mp hx with hx | hx
      · exact .inr ⟨x, hx, rfl, id⟩
      · left
        rw [List.mem_singleton.mp hx]
        simpa [event?] using hn
    · exact nodup_map_concat h (by simpa [event?] using hn)

theorem registers_markDispatched (t : Tables) (id : Uuid) (time : Int) :
    t.Registers (t.markDispatched id time).2 := by
  refine ⟨rfl, rfl, rfl, rfl, fun e he => ⟨_, mem_updateRows.mpr ⟨e, he, rfl⟩, ?_⟩,
    fun s hs => ⟨s, hs, rfl, rfl⟩, fun x hx => ?_,
    nodup_map_updateRows fun _ _ => by rfl, fun h => h⟩
  · split <;> exact ⟨rfl, rfl⟩
  · obtain ⟨e, he, rfl⟩ := mem_updateRows.mp hx
    refine .inr ⟨e, he, ?_⟩
    split
    · exact ⟨rfl, fun _ => rfl⟩
    · exact ⟨rfl, fun hd => hd⟩

theorem registers_saveSubscription (t : Tables) (s : Subscription) :
    t.Registers (t.saveSubscription s) := by
  unfold saveSubscription
  dsimp only
  split
  · refine .of_subscriptions (fun x hx => ⟨_, mem_updateRows.mpr ⟨x, hx, rfl⟩, ?_⟩) fun h => ?_
    · split
      · rename_i hi
        exact ⟨(by simpa using hi : x.subscriptionId = _).symm, rfl⟩
      · exact ⟨rfl, rfl⟩
    · exact nodup_map_updateRows (fun x hx => (by simpa using hx : x.subscriptionId = _).symm) h
  · rename_i hn
    refine .of_subscriptions (fun x hx => ⟨x, List.mem_append_left _ hx, rfl, rfl⟩) fun h => ?_
    exact nodup_map_concat h (by simpa using hn)

theorem registers_setEnabled (t : Tables) (id : Uuid) (enabled : Bool) :
    t.Registers (t.setEnabled id enabled).2 := by
  refine .of_subscriptions (fun x hx => ⟨_, mem_updateRows.mpr ⟨x, hx, rfl⟩, ?_⟩)
    (nodup_map_updateRows fun _ _ => by rfl)
  split <;> exact ⟨rfl, rfl⟩

/-- The claim ends: its row shows the outcome, and the response is recorded. -/
def finish? (t : Tables) (e : Ending) : Except StatementError Tables :=
  (t.release e.token.attemptId e.token.pickedAt e.token.worker e.outcome
    e.response.responseId).2.insertResponse e.response

/-- What happens to the tables, apart from new attempts, in one statement or in the two that end a
claim. -/
inductive Edit (ends : Ending → Prop) (t : Tables) : Tables → Prop
  | register {t' : Tables} (h : t.Registers t') : Edit ends t t'
  | claim (c : Claimant) (now : Int) : Edit ends t (t.claim c now).2
  | finish {t' : Tables} (e : Ending) (he : ends e) (held : t.attempts.any e.token.holds)
      (h : t.finish? e = .ok t') : Edit ends t t'

/-- What happens to the tables: an edit, or the offer of a new attempt. -/
inductive Change (ends : Ending → Prop) (t : Tables) : Tables → Prop
  | edit {t' : Tables} (h : Edit ends t t') : Change ends t t'
  | offer (r : AttemptRow) (fresh : r.IsFresh)
      (places : t.Places r.applicationId r.eventId r.subscriptionId) : Change ends t (t.offer r)

/-- Changes in turn. -/
abbrev Changes (ends : Ending → Prop) : Tables → Tables → Prop :=
  Relation.ReflTransGen (Change ends)

theorem Edit.mono {p q : Ending → Prop} (hpq : ∀ e, p e → q e) {t t' : Tables} (h : Edit p t t') :
    Edit q t t' := by
  cases h with
  | register h => exact .register h
  | claim c now => exact .claim c now
  | finish e he held h => exact .finish e (hpq e he) held h

theorem Changes.invariant {ends : Ending → Prop} {I : Tables → Prop} {t t' : Tables}
    (h : Changes ends t t') (ht : I t) (hI : ∀ a b, Change ends a b → I a → I b) : I t' := by
  induction h with
  | refl => exact ht
  | tail _ hab ih => exact hI _ _ hab ih

/-- Attempts and responses have identifiers of their own, and attempts also keys; no table has been
lost, and references are checked. -/
structure Indexed (t : Tables) : Prop where
  attemptIds : (t.attempts.map (·.attemptId)).Nodup
  dispatchKeys : (t.attempts.map (·.dispatchKey)).Nodup
  responseIds : (t.responses.map (·.responseId)).Nodup
  lost : t.lost = []
  referencesUnchecked : t.referencesUnchecked = false

/-- The references of attempts lead to rows of the same application, and those of responses to
attempts. -/
structure Sound (t : Tables) : Prop extends Indexed t where
  places : ∀ r ∈ t.attempts, t.Places r.applicationId r.eventId r.subscriptionId
  responses : ∀ x ∈ t.responses, ∃ r ∈ t.attempts, r.attemptId = x.attemptId

theorem sound_empty : empty.Sound where
  attemptIds := List.nodup_nil
  dispatchKeys := List.nodup_nil
  places := fun _ h => absurd h List.not_mem_nil
  responseIds := List.nodup_nil
  responses := fun _ h => absurd h List.not_mem_nil
  lost := rfl
  referencesUnchecked := rfl

theorem isTaken_eq_false {t : Tables} {r : AttemptRow} (h : t.isTaken r = false) :
    ∀ old ∈ t.attempts, old.attemptId ≠ r.attemptId ∧ old.dispatchKey ≠ r.dispatchKey := by
  simpa [isTaken] using h

theorem Indexed.offer {t : Tables} (h : t.Indexed) (r : AttemptRow) : (t.offer r).Indexed := by
  unfold Tables.offer
  split
  · exact h
  · rename_i ht
    have hn := isTaken_eq_false (Bool.eq_false_iff.mpr ht)
    exact { h with
      attemptIds := nodup_map_concat h.attemptIds fun old ho => (hn old ho).1
      dispatchKeys := nodup_map_concat h.dispatchKeys fun old ho => (hn old ho).2 }

theorem Sound.offer {t : Tables} (h : t.Sound) {r : AttemptRow}
    (places : t.Places r.applicationId r.eventId r.subscriptionId) :
    (t.offer r).Sound := by
  have hi := h.toIndexed.offer r
  unfold Tables.offer at hi ⊢
  split
  · exact h
  · rename_i ht
    rw [if_neg ht] at hi
    refine { hi with places := fun x hx => ?_, responses := fun x hx => ?_ }
    · rcases List.mem_append.mp hx with hx | hx
      · exact (h.places x hx).congr rfl rfl
      · rw [List.mem_singleton.mp hx]
        exact places.congr rfl rfl
    · obtain ⟨old, ho, hi⟩ := h.responses x hx
      exact ⟨old, List.mem_append_left _ ho, hi⟩

theorem Indexed.updateAttempts {t : Tables} (h : t.Indexed) {select : AttemptRow → Bool}
    {change : AttemptRow → AttemptRow}
    (hc : ∀ r, (change r).attemptId = r.attemptId ∧ (change r).dispatchKey = r.dispatchKey) :
    Indexed { t with attempts := updateRows select change t.attempts } :=
  { h with
    attemptIds := nodup_map_updateRows (fun r _ => (hc r).1) h.attemptIds
    dispatchKeys := nodup_map_updateRows (fun r _ => (hc r).2) h.dispatchKeys }

/-- Soundness does not depend on the columns in which rows evolve. -/
theorem Sound.updateAttempts {t : Tables} (h : t.Sound) {select : AttemptRow → Bool}
    {change : AttemptRow → AttemptRow}
    (hc : ∀ r, (change r).attemptId = r.attemptId ∧ (change r).applicationId = r.applicationId ∧
      (change r).eventId = r.eventId ∧ (change r).subscriptionId = r.subscriptionId ∧
      (change r).dispatchKey = r.dispatchKey) :
    Sound { t with attempts := updateRows select change t.attempts } := by
  have hk : ∀ r, (if select r then change r else r).attemptId = r.attemptId ∧
      (if select r then change r else r).applicationId = r.applicationId ∧
      (if select r then change r else r).eventId = r.eventId ∧
      (if select r then change r else r).subscriptionId = r.subscriptionId := by
    intro r
    split
    · exact ⟨(hc r).1, (hc r).2.1, (hc r).2.2.1, (hc r).2.2.2.1⟩
    · exact ⟨rfl, rfl, rfl, rfl⟩
  refine { h.toIndexed.updateAttempts fun r => ⟨(hc r).1, (hc r).2.2.2.2⟩ with
    places := fun x hx => ?_, responses := fun x hx => ?_ }
  · obtain ⟨r, hr, rfl⟩ := mem_updateRows.mp hx
    obtain ⟨-, ha, he, hs⟩ := hk r
    rw [ha, he, hs]
    exact (h.places r hr).congr rfl rfl
  · obtain ⟨r, hr, hi⟩ := h.responses x hx
    exact ⟨_, mem_updateRows.mpr ⟨r, hr, rfl⟩, (hk r).1.trans hi⟩

/-- A response is recorded when its identifier is new and its attempt is there. -/
theorem insertResponse_eq_ok {t t' : Tables} (h : t.referencesUnchecked = false) {r : Response}
    (hr : t.insertResponse r = .ok t') : (t.response? r.responseId) = none ∧
      (∃ a ∈ t.attempts, a.attemptId = r.attemptId) ∧
      t' = { t with responses := t.responses ++ [r.toRow] } := by
  unfold insertResponse at hr
  split at hr
  · cases hr
  · rename_i hn
    split at hr
    · cases hr
    · rename_i ha
      cases hr
      refine ⟨by simpa using hn, ?_, rfl⟩
      simpa [h, attempt?] using ha

/-- The end of a claim changes the rows that are held under it and adds its response, which is
new. -/
theorem finish?_eq_ok {t t' : Tables} (hu : t.referencesUnchecked = false) {e : Ending}
    (h : t.finish? e = .ok t') :
    t' = { t with
      attempts := updateRows e.token.holds (e.outcome.apply e.response.responseId) t.attempts
      responses := t.responses ++ [e.response.toRow] } :=
  (insertResponse_eq_ok (by exact hu) h).2.2

theorem finish?_response {t t' : Tables} (hu : t.referencesUnchecked = false) {e : Ending}
    (h : t.finish? e = .ok t') : ∀ x ∈ t.responses, x.responseId ≠ e.response.responseId := by
  have hn := (insertResponse_eq_ok (by exact hu) h).1
  simpa [response?, release] using hn

theorem Indexed.finish {t t' : Tables} (hs : t.Indexed) {e : Ending} (h : t.finish? e = .ok t') :
    t'.Indexed := by
  have hn := finish?_response hs.referencesUnchecked h
  obtain rfl := finish?_eq_ok hs.referencesUnchecked h
  have hr : Indexed { t with
      attempts := updateRows e.token.holds (e.outcome.apply e.response.responseId) t.attempts } :=
    hs.updateAttempts fun r => by
      obtain ⟨hi, -, -, -, hk⟩ := e.outcome.apply_frame e.response.responseId r
      exact ⟨hi, hk⟩
  exact { hr with responseIds := nodup_map_concat hs.responseIds hn }

theorem Sound.finish {t t' : Tables} (hs : t.Sound) {e : Ending} (h : t.finish? e = .ok t') :
    t'.Sound := by
  have hi := hs.toIndexed.finish h
  have hr : (t.release e.token.attemptId e.token.pickedAt e.token.worker e.outcome
      e.response.responseId).2.Sound :=
    hs.updateAttempts fun r => e.outcome.apply_frame e.response.responseId r
  obtain ⟨-, ⟨a, ha, hai⟩, rfl⟩ := insertResponse_eq_ok hr.referencesUnchecked h
  refine { hi with places := fun r hm => (hr.places r hm).congr rfl rfl, responses := fun x hx => ?_ }
  rcases List.mem_append.mp hx with hx | hx
  · exact hr.responses x hx
  · rw [List.mem_singleton.mp hx]
    exact ⟨a, ha, hai⟩

theorem Edit.indexed {ends : Ending → Prop} {t t' : Tables} (h : Edit ends t t') (hs : t.Indexed) :
    t'.Indexed := by
  cases h with
  | register h =>
    refine ⟨?_, ?_, ?_, h.lost.trans hs.lost,
      h.referencesUnchecked.trans hs.referencesUnchecked⟩
    · rw [h.attempts]
      exact hs.attemptIds
    · rw [h.attempts]
      exact hs.dispatchKeys
    · rw [h.responses]
      exact hs.responseIds
  | claim c now =>
    unfold Tables.claim
    split
    · exact hs
    · exact hs.updateAttempts fun r => ⟨rfl, rfl⟩
  | finish e _ _ h => exact hs.finish h

theorem Change.indexed {ends : Ending → Prop} {t t' : Tables} (h : Change ends t t')
    (hs : t.Indexed) : t'.Indexed := by
  cases h with
  | edit h => exact h.indexed hs
  | offer r _ _ => exact hs.offer r

theorem Edit.sound {ends : Ending → Prop} {t t' : Tables} (h : Edit ends t t') (hs : t.Sound) :
    t'.Sound := by
  have hi := h.indexed hs.toIndexed
  cases h with
  | register h =>
    refine { hi with places := ?_, responses := ?_ }
    · rw [h.attempts]
      exact fun r hr => h.places (hs.places r hr)
    · rw [h.attempts, h.responses]
      exact hs.responses
  | claim c now =>
    unfold Tables.claim
    split
    · exact hs
    · exact hs.updateAttempts fun r => ⟨rfl, rfl, rfl, rfl, rfl⟩
  | finish e _ _ h => exact hs.finish h

theorem Change.sound {ends : Ending → Prop} {t t' : Tables} (h : Change ends t t') (hs : t.Sound) :
    t'.Sound := by
  cases h with
  | edit h => exact h.sound hs
  | offer r _ places => exact hs.offer places

/-- An edit lets each attempt evolve. -/
theorem Edit.attempts {ends : Ending → Prop} {t t' : Tables} (h : Edit ends t t')
    (hs : t.Indexed) :
    ∃ f, t'.attempts = t.attempts.map f ∧ ∀ r ∈ t.attempts, r.Evolves ends (f r) := by
  cases h with
  | register h => exact ⟨id, by rw [h.attempts, List.map_id], fun r _ => .same⟩
  | claim c now =>
    unfold Tables.claim
    split
    · exact ⟨id, (List.map_id _).symm, fun r _ => .same⟩
    · rename_i r hr
      obtain ⟨hm, hf, hd⟩ := mem_of_nextClaim? hr
      refine ⟨_, rfl, fun x hx => ?_⟩
      split
      · rename_i hi
        obtain rfl := List.inj_on_of_nodup_map hs.attemptIds hx hm (by simpa using hi)
        exact .claimed c now hf hd
      · exact .same
  | finish e he _ h =>
    obtain rfl := finish?_eq_ok hs.referencesUnchecked h
    refine ⟨_, rfl, fun x _ => ?_⟩
    split
    · rename_i hx
      exact .ended e hx he
    · exact .same

/-- What a change makes of the attempts. -/
theorem Change.attempts {ends : Ending → Prop} {t t' : Tables} (h : Change ends t t')
    (hs : t.Indexed) :
    (∃ r, r.IsFresh ∧ t.isTaken r = false ∧ t'.attempts = t.attempts ++ [r]) ∨
      ∃ f, t'.attempts = t.attempts.map f ∧ ∀ r ∈ t.attempts, r.Evolves ends (f r) := by
  cases h with
  | edit h => exact .inr (h.attempts hs)
  | offer r fresh _ =>
    unfold Tables.offer
    split
    · exact .inr ⟨id, (List.map_id _).symm, fun r _ => .same⟩
    · rename_i ht
      exact .inl ⟨r, fresh, Bool.eq_false_iff.mpr ht, rfl⟩

end Tables
end WebhookDelivery
