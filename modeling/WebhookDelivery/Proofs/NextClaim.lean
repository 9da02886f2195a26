import Mathlib.Data.Prod.Lex
import WebhookDelivery.Proofs.Grounding
import WebhookDelivery.Proofs.Readability

/-!
# WebhookDelivery.Proofs.NextClaim

Which attempt a worker is given.

* `AttemptRow.claimOrder`, `claimsBefore_iff`: attempts are compared by the time at which they are
  due, or else by that of their creation, and then by that of their creation.
* `le_of_least?`: the least element of a list is not greater than any other.
* `Tables.Offers`: an attempt is pending and may be given to the worker. `isClaimable_iff` says that
  the statement selects these attempts, `nextClaim?_eq_some` that it takes the first of them.
* `claimNext_of_none`, `claimNext_of_some`: what a claim gives and what it leaves.
* `claim_takes_first_offered`: the result about all stores that arise from requests, from changes of
  rows and from insertions of attempts.
-/

namespace WebhookDelivery

/-! ## The order of claims -/

namespace AttemptRow

/-- What attempts are ordered by when one of them is claimed. -/
def claimOrder (r : AttemptRow) : Int ×ₗ Int :=
  toLex (r.delayUntil.getD r.createdAt, r.createdAt)

theorem claimsBefore_iff {a b : AttemptRow} :
    a.claimsBefore b = true ↔ a.claimOrder ≤ b.claimOrder := by
  simp [claimsBefore, claimOrder, Prod.Lex.le_iff]

end AttemptRow

namespace Tables

/-- The least element of a list is not greater than any other. -/
theorem le_of_least? {α β : Type} [LinearOrder β] {le : α → α → Bool} {key : α → β}
    (hle : ∀ a b, le a b = true ↔ key a ≤ key b) {xs : List α} {x : α}
    (h : least? le xs = some x) : ∀ y ∈ xs, key x ≤ key y := by
  induction xs generalizing x with
  | nil => cases h
  | cons first rest ih =>
    rw [List.forall_mem_cons]
    simp only [least?] at h
    split at h
    · rename_i hnone
      cases h
      rw [least?_eq_none_iff] at hnone
      exact ⟨le_refl _, by simp [hnone]⟩
    · rename_i z hz
      have hrest := ih hz
      split at h
      · rename_i hfirst
        cases h
        have hxz := (hle _ _).mp hfirst
        exact ⟨le_refl _, fun y hy => hxz.trans (hrest y hy)⟩
      · rename_i hfirst
        cases h
        rw [hle, not_le] at hfirst
        exact ⟨hfirst.le, hrest⟩

/-! ## Attempts that may be given to a worker -/

/-- The attempt is pending, and its subscription is enabled and for workers like this one. -/
structure Offers (t : Tables) (c : Claimant) (now : ClockTime) (r : AttemptRow) : Prop where
  attempt : r ∈ t.attempts
  pending : r.record.statusAt now = .ok .pending
  subscription : ∃ s ∈ t.subscriptions, s.subscriptionId = r.subscriptionId ∧ s.isEnabled = true ∧
    if c.dedicated then c.name ∈ s.dedicatedWorkers else s.dedicatedWorkers = []

theorem isClaimable_iff {t : Tables} {c : Claimant} {now : ClockTime} (aware : now.isAware)
    {r : AttemptRow} (hr : r.EndsOnce) : t.isClaimable c now.micros r = true ↔
      r.record.statusAt now = .ok .pending ∧ ∃ s ∈ t.subscriptions,
        s.subscriptionId = r.subscriptionId ∧ s.isEnabled = true ∧
          if c.dedicated then c.name ∈ s.dedicatedWorkers else s.dedicatedWorkers = [] := by
  have hscope : ∀ s : Subscription, s.inScope c.name c.dedicated = true ↔
      if c.dedicated then c.name ∈ s.dedicatedWorkers else s.dedicatedWorkers = [] := by
    intro s
    unfold Subscription.inScope
    split <;> simp
  rw [← AttemptRow.hasStatus_iff hr aware, AttemptRow.hasStatus, isClaimable, Bool.and_eq_true,
    List.any_eq_true]
  simp only [Bool.and_eq_true, beq_iff_eq, hscope, and_assoc]

/-- The statement takes the first of the attempts that it selects. -/
theorem nextClaim?_eq_some {t : Tables} {c : Claimant} {now : ClockTime} (aware : now.isAware)
    (ht : ∀ r ∈ t.attempts, r.EndsOnce) {first : AttemptRow}
    (h : t.nextClaim? c now.micros = some first) :
    t.Offers c now first ∧ ∀ r, t.Offers c now r → first.claimOrder ≤ r.claimOrder := by
  obtain ⟨hmem, hclaimable⟩ := List.mem_filter.mp (mem_of_least? h)
  obtain ⟨hpending, hsubscription⟩ := (isClaimable_iff aware (ht first hmem)).mp hclaimable
  refine ⟨⟨hmem, hpending, hsubscription⟩, fun r hr => ?_⟩
  have hr' : t.isClaimable c now.micros r = true :=
    (isClaimable_iff aware (ht r hr.attempt)).mpr ⟨hr.pending, hr.subscription⟩
  exact le_of_least? (fun a b => AttemptRow.claimsBefore_iff (a := a) (b := b)) h r
    (List.mem_filter.mpr ⟨hr.attempt, hr'⟩)

theorem nextClaim?_eq_none_iff {t : Tables} {c : Claimant} {now : ClockTime} (aware : now.isAware)
    (ht : ∀ r ∈ t.attempts, r.EndsOnce) :
    t.nextClaim? c now.micros = none ↔ ¬ ∃ r, t.Offers c now r := by
  rw [nextClaim?, least?_eq_none_iff, List.filter_eq_nil_iff, not_exists]
  constructor
  · intro h r hr
    exact h r hr.attempt ((isClaimable_iff aware (ht r hr.attempt)).mpr ⟨hr.pending, hr.subscription⟩)
  · intro h r hr hclaimable
    obtain ⟨hpending, hsubscription⟩ := (isClaimable_iff aware (ht r hr)).mp hclaimable
    exact h r ⟨hr, hpending, hsubscription⟩

/-- A claim changes one row. -/
theorem claim_of_some {t : Tables} (hi : t.Indexed) {c : Claimant} {now : Int} {first : AttemptRow}
    (h : t.nextClaim? c now = some first) : t.claim c now = (some (first.claimedBy c now),
      { t with attempts := t.attempts.map fun r => if r = first then r.claimedBy c now else r }) := by
  have hmem := (mem_of_nextClaim? h).1
  have hrows : updateRows (fun old : AttemptRow => old.attemptId == first.attemptId)
      (fun old => old.claimedBy c now) t.attempts =
        t.attempts.map fun r => if r = first then r.claimedBy c now else r := by
    refine List.map_congr_left fun r hr => ?_
    by_cases he : r = first
    · simp [he]
    · have hne : r.attemptId ≠ first.attemptId := fun hid =>
        he (List.inj_on_of_nodup_map hi.attemptIds hr hmem hid)
      simp [he, hne]
  rw [claim, h]
  simp only [hrows]

theorem dangling_claim (t : Tables) (c : Claimant) (now : Int) :
    (t.claim c now).2.dangling = t.dangling := by
  unfold Tables.claim
  split
  · rfl
  · rename_i first _
    simp only [dangling, updateRows, List.filterMap_map]
    refine List.filterMap_congr fun r _ => ?_
    by_cases hid : (r.attemptId == first.attemptId) = true
    · rw [Function.comp_apply, if_pos hid]
      rfl
    · rw [Function.comp_apply, if_neg hid]
      rfl

theorem keepsReferences_of_dangling_eq {before after : Tables}
    (h : after.dangling = before.dangling) : keepsReferences before after = true := by
  rw [keepsReferences, h]
  simp

end Tables

/-! ## What a claim gives -/

/-- What is read of a claim. -/
def Claim.read (r : AttemptRow) (e : Event) (s : Subscription) : Except RecordError Claim := do
  return ⟨← r.read, ← e.check, ← s.readRow⟩

/-- The row of an attempt, its event and its subscription can be read back. -/
structure Claim.CanRead (r : AttemptRow) (e : Event) (s : Subscription) : Prop where
  attempt : r.IsReadable
  event : e.check = .ok e
  subscription : s.readRow = .ok s

theorem Claim.read_of_canRead {r : AttemptRow} {e : Event} {s : Subscription}
    (h : Claim.CanRead r e s) : Claim.read r e s = .ok ⟨r.record, e, s⟩ := by
  have hr : r.read = .ok r.record := AttemptRow.read_eq_ok_iff.mpr ⟨h.attempt, rfl⟩
  rw [Claim.read, hr, h.event, h.subscription]
  rfl

theorem Claim.read_of_not_canRead {r : AttemptRow} {e : Event} {s : Subscription}
    (h : ¬ Claim.CanRead r e s) : ∃ x, Claim.read r e s = .error x := by
  unfold Claim.read
  cases hr : r.read with
  | error x => exact ⟨x, rfl⟩
  | ok a =>
    cases he : e.check with
    | error x => exact ⟨x, rfl⟩
    | ok f =>
      cases hs : s.readRow with
      | error x => exact ⟨x, rfl⟩
      | ok g =>
        refine absurd ⟨(AttemptRow.read_eq_ok_iff.mp hr).1, ?_, ?_⟩ h
        · rw [he, Event.eq_of_check he]
        · rw [hs, Subscription.eq_of_readRow hs]

namespace Engine

theorem readClaim_apply {w : World} (ho : w.store.isOpen = true) (hl : w.store.tables.lost = [])
    {r : AttemptRow} {e : Event} {s : Subscription}
    (he : w.store.tables.event? r.eventId = some e)
    (hs : w.store.tables.subscription? r.subscriptionId = some s) :
    (readAttempt r >>= loadClaim) w = ((Claim.read r e s).mapError .record, w) := by
  rw [bind_apply, readAttempt, Claim.read]
  cases hr : r.read with
  | error x => rfl
  | ok a =>
    obtain ⟨-, -, hevent, hsubscription, -⟩ := AttemptRow.read_eq_ok hr
    change loadClaim a w = _
    rw [loadClaim, bind_apply, getEvent_apply ho hl, hevent, he, inScope_none, Option.mapM_some]
    cases e.check with
    | error x => rfl
    | ok f =>
      change (getSubscription a.subscriptionId none >>= _) w = _
      rw [bind_apply, getSubscription_apply ho hl, hsubscription, hs, inScope_none, Option.mapM_some]
      cases s.readRow <;> rfl

variable {w : World} (hw : w.store.IsGrounded) (c : Claimant) (now : Int)
include hw

theorem claimNext_of_none (h : w.store.tables.nextClaim? c now = none) :
    claimNext c now w = (.ok none, w) := by
  have hclaim : w.store.tables.claim c now = (none, w.store.tables) := by rw [Tables.claim, h]
  unfold claimNext
  rw [atomically_apply (x := none)
    (v := { w with store := { w.store with inTransaction := true } }) hw.idle.isOpen
    hw.idle.inTransaction ?_ (Tables.keepsReferences_self _)]
  · rw [← hw.idle.inTransaction]
  · rw [bind_apply, touch_apply (by exact hw.indexed.lost)]
    dsimp only
    rw [bind_apply, touch_apply (by exact hw.indexed.lost)]
    dsimp only
    rw [bind_apply, change_apply]
    dsimp only
    rw [hclaim]
    rfl

/-- The claimed row is read with its event and its subscription, and is given back if that fails. -/
theorem claimNext_of_some {first : AttemptRow} {e : Event} {s : Subscription}
    (h : w.store.tables.nextClaim? c now = some first)
    (he : w.store.tables.event? first.eventId = some e)
    (hs : w.store.tables.subscription? first.subscriptionId = some s) :
    claimNext c now w = match Claim.read (first.claimedBy c now) e s with
      | .ok claim => (.ok (some claim), { w with
          store := { w.store with tables := (w.store.tables.claim c now).2 } })
      | .error x => (.error (.record x), w) := by
  have hclaim := Tables.claim_of_some hw.indexed h
  unfold claimNext
  rw [atomically_begun (r := ((Claim.read (first.claimedBy c now) e s).map some).mapError .record)
    (v := { w with store := { w.store with
      tables := (w.store.tables.claim c now).2, inTransaction := true } })
    hw.idle.isOpen hw.idle.inTransaction ?_]
  · have hkeeps := Tables.keepsReferences_of_dangling_eq (w.store.tables.dangling_claim c now)
    cases Claim.read (first.claimedBy c now) e s with
    | ok claim =>
      change settle w.store.tables (.ok (some claim)) _ = _
      simp only [settle, hkeeps, if_true, ← hw.idle.inTransaction]
    | error x =>
      change settle w.store.tables (.error (.record x)) _ = _
      simp only [settle, ← hw.idle.inTransaction]
      rfl
  · rw [bind_apply, touch_apply (by exact hw.indexed.lost)]
    dsimp only
    rw [bind_apply, touch_apply (by exact hw.indexed.lost)]
    dsimp only
    rw [bind_apply, change_apply]
    dsimp only
    rw [hclaim]
    change (readAttempt (first.claimedBy c now) >>= fun a =>
      loadClaim a >>= fun claim => pure (some claim)) _ = _
    rw [← bind_assoc, bind_apply, readClaim_apply (r := first.claimedBy c now) (e := e) (s := s)
      (by exact hw.idle.isOpen) (by exact hw.indexed.lost) (by exact he) (by exact hs)]
    cases Claim.read (first.claimedBy c now) e s <;> rfl

end Engine

theorem Tables.Delivers.exists {t : Tables} {event subscription : Uuid}
    (h : t.Delivers event subscription) :
    ∃ e s, t.event? event = some e ∧ t.subscription? subscription = some s := by
  obtain ⟨e, he⟩ := Option.isSome_iff_exists.mp h.event
  obtain ⟨s, hs⟩ := Option.isSome_iff_exists.mp h.subscription
  exact ⟨e, s, he, hs⟩

/-- In every store that arises from requests, from changes of rows and from insertions of attempts:
a claim gives nothing, and changes nothing, exactly if no attempt is offered to the worker. Else the
first of those that are is given to it, with its event and its subscription, provided that they and
the claimed row can be read back; its row is marked and nothing else is changed. If they cannot be
read the claim fails and changes nothing. -/
theorem claim_takes_first_offered {onFile : Bool} {w : World}
    (h : (Store.create onFile).Strays w.store) (c : Claimant) {now : ClockTime}
    (aware : now.isAware) :
    ((Engine.claimNext c now.micros w).1 = .ok none ↔
      ¬ ∃ r, w.store.tables.Offers c now r) ∧
    ((Engine.claimNext c now.micros w).1 = .ok none → (Engine.claimNext c now.micros w).2 = w) ∧
    ((∃ r, w.store.tables.Offers c now r) → ∃ first e s,
      (w.store.tables.Offers c now first ∧
        ∀ r, w.store.tables.Offers c now r → first.claimOrder ≤ r.claimOrder) ∧
      (e ∈ w.store.tables.events ∧ e.eventId = first.eventId) ∧
      (s ∈ w.store.tables.subscriptions ∧ s.subscriptionId = first.subscriptionId) ∧
      (Claim.CanRead (first.claimedBy c now.micros) e s → Engine.claimNext c now.micros w =
        (.ok (some ⟨(first.claimedBy c now.micros).record, e, s⟩), { w with
          store := { w.store with tables := { w.store.tables with
            attempts := w.store.tables.attempts.map fun r =>
              if r = first then r.claimedBy c now.micros else r } } })) ∧
      (¬ Claim.CanRead (first.claimedBy c now.micros) e s → ∃ x,
        Engine.claimNext c now.micros w = (.error (.record x), w))) := by
  have hw : w.store.IsGrounded := h.isGrounded (Store.isGrounded_create onFile)
  cases hnext : w.store.tables.nextClaim? c now.micros with
  | none =>
    have hnot := (Tables.nextClaim?_eq_none_iff aware hw.endsOnce).mp hnext
    rw [Engine.claimNext_of_none hw c now.micros hnext]
    exact ⟨iff_of_true rfl hnot, fun _ => rfl, fun hoffered => absurd hoffered hnot⟩
  | some first =>
    obtain ⟨hfirst, hleast⟩ := Tables.nextClaim?_eq_some aware hw.endsOnce hnext
    obtain ⟨e, s, he, hs⟩ := (hw.grounded first hfirst.attempt).exists
    have hclaim := Engine.claimNext_of_some hw c now.micros hnext he hs
    have hrow := Tables.claim_of_some hw.indexed hnext
    have hresult : (Engine.claimNext c now.micros w).1 ≠ .ok none := by
      rw [hclaim]
      cases Claim.read (first.claimedBy c now.micros) e s <;> simp
    refine ⟨iff_of_false hresult (not_not_intro ⟨first, hfirst⟩), fun hnone => absurd hnone hresult,
      fun _ => ⟨first, e, s, ⟨hfirst, hleast⟩, Data.mem_of_event? he, ?_, fun hread => ?_,
        fun hread => ?_⟩⟩
    · exact ⟨List.mem_of_find?_eq_some hs, by simpa using List.find?_some hs⟩
    · rw [hclaim, Claim.read_of_canRead hread, hrow]
    · obtain ⟨x, hx⟩ := Claim.read_of_not_canRead hread
      exact ⟨x, by rw [hclaim, hx]⟩

/-- Attempts that are due in the thirtieth, the tenth and the twentieth second. -/
def Sample.dueInDisorder : World :=
  world.runAll [.saveSubscription subscription, .storeEvent event,
    .storeEvent { event with eventId := .ofNat 4 }, .storeEvent { event with eventId := .ofNat 5 },
    .replay (.ofNat 3) application (some subscription.subscriptionId) 30000000,
    .replay (.ofNat 4) application (some subscription.subscriptionId) 10000000,
    .replay (.ofNat 5) application (some subscription.subscriptionId) 20000000]

namespace Sample

theorem rows_dueInDisorder : ∃ a b c, dueInDisorder.store.tables.attempts = [a, b, c] ∧
    a.record.statusAt (.utc 25000000) = .ok .waiting ∧
    (b.record.statusAt (.utc 25000000) = .ok .pending ∧
      b.subscriptionId = subscription.subscriptionId ∧ b.eventId = .ofNat 4) ∧
    (c.record.statusAt (.utc 25000000) = .ok .pending ∧
      c.subscriptionId = subscription.subscriptionId) ∧
    ¬ c.claimsBefore b ∧ (b.claimedBy claimant 25000000).IsReadable :=
  ⟨_, _, _, rfl, rfl, ⟨rfl, rfl, rfl⟩, ⟨rfl, rfl⟩, by decide +kernel, rfl, by decide⟩

theorem subscriptions_dueInDisorder : dueInDisorder.store.tables.subscriptions = [subscription] :=
  rfl

/-- What is due is offered, as it is of the only subscription. -/
theorem offers_dueInDisorder {r : AttemptRow} (hr : r ∈ dueInDisorder.store.tables.attempts)
    (hpending : r.record.statusAt (.utc 25000000) = .ok .pending)
    (hs : r.subscriptionId = subscription.subscriptionId) :
    dueInDisorder.store.tables.Offers claimant (.utc 25000000) r :=
  ⟨hr, hpending, subscription, by simp [subscriptions_dueInDisorder], hs.symm, rfl, rfl⟩

/-- Only one event has the identifier. -/
theorem event_dueInDisorder {e : Event} (he : e ∈ dueInDisorder.store.tables.events)
    (hid : e.eventId = .ofNat 4) : e = { event with eventId := .ofNat 4 } := by
  have hevents : dueInDisorder.store.tables.events = [event, { event with eventId := .ofNat 4 },
    { event with eventId := .ofNat 5 }] := rfl
  rw [hevents] at he
  simp only [List.mem_cons, List.not_mem_nil, or_false] at he
  rcases he with rfl | rfl | rfl
  · cases hid
  · rfl
  · cases hid

end Sample

open Sample in
/-- Of three attempts two are due, and the one that was due first is given to the worker. -/
theorem due_attempt_is_claimed : (Store.create true).Strays dueInDisorder.store ∧
    (ClockTime.utc 25000000).isAware ∧ ∃ a b c,
      dueInDisorder.store.tables.attempts = [a, b, c] ∧
      ¬ dueInDisorder.store.tables.Offers claimant (.utc 25000000) a ∧
      dueInDisorder.store.tables.Offers claimant (.utc 25000000) b ∧
      dueInDisorder.store.tables.Offers claimant (.utc 25000000) c ∧
      (Engine.claimNext claimant 25000000 dueInDisorder).1 =
        .ok (some ⟨(b.claimedBy claimant 25000000).record, { event with eventId := .ofNat 4 },
          subscription⟩) := by
  have h : (Store.create true).Strays dueInDisorder.store := (Store.leads_runAll world _).strays
  have aware : (ClockTime.utc 25000000).isAware := rfl
  obtain ⟨a, b, c, hrows, ha, ⟨hb, hbs, hbe⟩, ⟨hc, hcs⟩, hlater, hread⟩ := rows_dueInDisorder
  have hwaits : ¬ dueInDisorder.store.tables.Offers claimant (.utc 25000000) a := fun hoffered => by
    have hpending := hoffered.pending
    rw [ha] at hpending
    cases hpending
  have hoffersB := offers_dueInDisorder (by simp [hrows]) hb hbs
  have hoffersC := offers_dueInDisorder (by simp [hrows]) hc hcs
  obtain ⟨-, -, hsome⟩ := claim_takes_first_offered h claimant aware
  obtain ⟨first, e, s, ⟨hfirst, hleast⟩, ⟨he, hid⟩, ⟨hs, -⟩, hclaim, -⟩ := hsome ⟨b, hoffersB⟩
  obtain rfl : first = b := by
    have hmem := hfirst.attempt
    rw [hrows] at hmem
    rcases List.mem_cons.mp hmem with rfl | hmem
    · exact absurd hfirst hwaits
    rcases List.mem_pair.mp hmem with rfl | rfl
    · rfl
    · exact absurd (AttemptRow.claimsBefore_iff.mpr (hleast b hoffersB)) hlater
  obtain rfl : s = subscription := by simpa [subscriptions_dueInDisorder] using hs
  obtain rfl := event_dueInDisorder he (hid.trans hbe)
  exact ⟨h, aware, a, first, c, hrows, hwaits, hoffersB, hoffersC,
    congrArg Prod.fst (hclaim ⟨hread, by decide, rfl⟩)⟩

/-- A store with a due attempt whose subscription a clock in the west dates in the last hour of the
year 9999. -/
def Sample.withWestern : World :=
  (Engine.insertAttempt (.new (.ofNat 7) application event.eventId western.subscriptionId 0 0) "key"
    (world.runAll [.saveSubscription western, .storeEvent event])).2

/-- The attempt is offered, but it cannot be claimed. -/
theorem western_attempt_is_not_claimed :
    (Store.create true).Strays Sample.withWestern.store ∧
      (∃ r, Sample.withWestern.store.tables.Offers Sample.claimant (.utc 1) r) ∧
      (Engine.claimNext Sample.claimant 1 Sample.withWestern).1 =
        .error (.record (.time .outOfRange)) := by
  have h : (Store.create true).Strays Sample.withWestern.store :=
    (Store.leads_runAll Sample.world [.saveSubscription Sample.western,
      .storeEvent Sample.event]).strays.tail (.inr (.inr ⟨_, _, _, rfl, rfl⟩))
  refine ⟨h, ⟨_, List.mem_cons_self, rfl, Sample.western.toRow, List.mem_cons_self, rfl, rfl, rfl⟩, ?_⟩
  rfl

end WebhookDelivery
