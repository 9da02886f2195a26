import WebhookDelivery.Proofs.DispatchKeys
import WebhookDelivery.Proofs.Run

/-!
# WebhookDelivery.Proofs.FanOut

The attempts that dispatch and replay add, and what their keys tell of them.

* `AttemptRow.IsInitial`, `AttemptRow.IsReplay`: the attempt was created by dispatch, or by replay.
* `Data.dispatched_attempts`, `Data.replayed_attempts`: they only add such attempts, which are fresh.
* `Data.exists_initial`, `Data.exists_dispatched`: a dispatch that draws new identifiers leaves an
  attempt for each receiver, which is new unless the event was dispatched before.
* `Tables.Routed`: an event of which a dispatch has left an attempt is marked as dispatched;
  `Call.routed_after` says that calls keep this.
-/

namespace WebhookDelivery

namespace AttemptRow

/-- The row has the key of the dispatch of its event to its subscription. -/
def IsInitial (r : AttemptRow) : Prop :=
  r.dispatchKey = (DispatchKey.initial r.eventId r.subscriptionId).write

/-- The row has the key of a replay of its event to its subscription. -/
def IsReplay (r : AttemptRow) : Prop :=
  ∃ draw, r.dispatchKey = (DispatchKey.replay r.eventId r.subscriptionId draw).write

/-- The row is that of a new attempt which dispatched an event at a time to a subscription. -/
structure IsDispatchOf (r : AttemptRow) (e : Event) (now : Int) (s : Subscription) : Prop where
  isFresh : r.IsFresh
  isInitial : r.IsInitial
  eventId : r.eventId = e.eventId
  subscriptionId : r.subscriptionId = s.subscriptionId
  applicationId : r.applicationId = e.applicationId
  createdAt : r.createdAt = now
  delayUntil : r.delayUntil = some (max now e.occurredAt)

theorem IsReplay.not_initial {r : AttemptRow} (h : r.IsReplay) (e s : Uuid) :
    r.dispatchKey ≠ (DispatchKey.initial e s).write := by
  obtain ⟨draw, hd⟩ := h
  rw [hd]
  exact (DispatchKey.initial_ne_replay _ _ _ _ _).symm

end AttemptRow

/-- The identifiers of a kind that are drawn next. -/
def IdSupply.upcoming (s : IdSupply) (kind : IdKind) : Nat → List Uuid
  | 0 => []
  | n + 1 => s.next kind :: (s.advance kind).upcoming kind n

namespace Tables

theorem offer_attempts (t : Tables) (r : AttemptRow) :
    (t.offer r).attempts = t.attempts ∨ (t.offer r).attempts = t.attempts ++ [r] := by
  unfold offer
  split
  · exact .inl rfl
  · exact .inr rfl

/-- An attempt that is new by its identifier and its key is not taken, and is added. -/
theorem offer_of_new {t : Tables} {r : AttemptRow}
    (fresh : ∀ old ∈ t.attempts, old.attemptId ≠ r.attemptId)
    (unused : ∀ old ∈ t.attempts, old.dispatchKey ≠ r.dispatchKey) :
    t.isTaken r = false ∧ t.offer r = { t with attempts := t.attempts ++ [r] } := by
  have hfree : t.isTaken r = false := by
    rw [isTaken, List.any_eq_false]
    intro old hold
    simp [fresh old hold, unused old hold]
  refine ⟨hfree, ?_⟩
  rw [offer, hfree, if_neg Bool.false_ne_true]

end Tables

namespace Data

/-! ## What is added -/

/-- Steps that each add at most one attempt of a kind add attempts of that kind. -/
theorem foldl_attempts {p : AttemptRow → Prop} {f : Data → Subscription → Data}
    {targets : List Subscription} (hf : ∀ s ∈ targets, ∀ d,
      (f d s).tables.events = d.tables.events ∧
      ((f d s).tables.attempts = d.tables.attempts ∨
        ∃ r, p r ∧ (f d s).tables.attempts = d.tables.attempts ++ [r])) (d : Data) :
    (targets.foldl f d).tables.events = d.tables.events ∧
      ∃ new, (targets.foldl f d).tables.attempts = d.tables.attempts ++ new ∧ ∀ r ∈ new, p r := by
  induction targets generalizing d with
  | nil => exact ⟨rfl, [], (List.append_nil _).symm, fun _ hr => absurd hr List.not_mem_nil⟩
  | cons s rest ih =>
    rw [List.forall_mem_cons] at hf
    obtain ⟨he, new, ha, hp⟩ := ih hf.2 (f d s)
    obtain ⟨he', hs⟩ := hf.1 d
    refine ⟨he.trans he', ?_⟩
    rcases hs with hs | ⟨r, hr, hs⟩
    · exact ⟨new, by rw [List.foldl_cons, ha, hs], hp⟩
    · refine ⟨r :: new, by rw [List.foldl_cons, ha, hs, List.append_assoc]; rfl, fun x hx => ?_⟩
      rcases List.mem_cons.mp hx with rfl | hx
      · exact hr
      · exact hp x hx

theorem isDispatchOf_initialRow (d : Data) (e : Event) (now : Int) (s : Subscription) :
    (initialRow (d.initialAttempt e now s)).IsDispatchOf e now s where
  isFresh := AttemptRow.isFresh_new ..
  isInitial := rfl
  eventId := rfl
  subscriptionId := rfl
  applicationId := rfl
  createdAt := ClockTime.micros_utc now
  delayUntil := congrArg some (ClockTime.micros_utc (max now e.occurredAt))

theorem dispatched_attempts (e : Event) (now : Int) (targets : List Subscription) (d : Data) :
    (targets.foldl (dispatchTo e now) d).tables.events = d.tables.events ∧
      ∃ new, (targets.foldl (dispatchTo e now) d).tables.attempts = d.tables.attempts ++ new ∧
        ∀ r ∈ new, ∃ s ∈ targets, r.IsDispatchOf e now s := by
  refine foldl_attempts (fun s hs d => ⟨?_, ?_⟩) d
  · unfold dispatchTo Tables.offer
    dsimp only
    split <;> rfl
  · rcases d.tables.offer_attempts (initialRow (d.initialAttempt e now s)) with ha | ha
    · exact .inl ha
    · exact .inr ⟨_, ⟨s, hs, d.isDispatchOf_initialRow e now s⟩, ha⟩

theorem replayed_attempts (eventId application : Uuid) (now : Int) (targets : List Subscription)
    (d : Data) :
    (d.replayAll eventId application now targets).tables.events = d.tables.events ∧
      ∃ new, (d.replayAll eventId application now targets).tables.attempts =
        d.tables.attempts ++ new ∧ ∀ r ∈ new, r.IsFresh ∧ r.IsReplay := by
  refine foldl_attempts (fun s _ d => ?_) d
  unfold replayTo
  split
  · exact ⟨rfl, .inl rfl⟩
  · refine ⟨?_, ?_⟩
    · unfold Tables.offer
      dsimp only
      split <;> rfl
    · rcases d.tables.offer_attempts (.new (d.replayAttempt eventId application now s)
        (DispatchKey.replay eventId s.subscriptionId (d.ids.next .replay)).write) with ha | ha
      · exact .inl ha
      · exact .inr ⟨_, ⟨AttemptRow.isFresh_new .., _, rfl⟩, ha⟩

theorem ingest_attempts (d : Data) (e : Event) (now : Int) :
    ∃ new, (d.ingest e now).tables.attempts = d.tables.attempts ++ new ∧
      ∀ r ∈ new, r.IsFresh ∧ r.IsInitial ∧ r.eventId = e.eventId := by
  have hfan : ∀ (d : Data) (e : Event), ∃ new,
      (d.fanOut e now).tables.attempts = d.tables.attempts ++ new ∧
      ∀ r ∈ new, r.IsFresh ∧ r.IsInitial ∧ r.eventId = e.eventId := by
    intro d e
    obtain ⟨-, new, ha, hp⟩ := dispatched_attempts e now (d.receivers e) d
    refine ⟨new, ha, fun r hr => ?_⟩
    obtain ⟨s, -, h⟩ := hp r hr
    exact ⟨h.isFresh, h.isInitial, h.eventId⟩
  unfold ingest
  cases hs : d.tables.event? e.eventId with
  | none => exact hfan { d with tables := { d.tables with events := d.tables.events ++ [e] } } e
  | some stored =>
    dsimp only
    split
    · exact ⟨[], (List.append_nil _).symm, fun _ h => absurd h List.not_mem_nil⟩
    · obtain ⟨new, ha, hn⟩ := hfan d stored
      rw [(mem_of_event? hs).2] at hn
      exact ⟨new, ha, hn⟩

/-- With new identifiers every receiver gets an attempt, unless it has one from a dispatch. -/
theorem exists_initial {e : Event} {now : Int} {targets : List Subscription} {d : Data}
    (distinct : (d.ids.upcoming .attempt targets.length).Nodup)
    (fresh : ∀ id ∈ d.ids.upcoming .attempt targets.length,
      ∀ r ∈ d.tables.attempts, r.attemptId ≠ id) :
    ∀ s ∈ targets, ∃ r ∈ (targets.foldl (dispatchTo e now) d).tables.attempts,
      r.dispatchKey = (DispatchKey.initial e.eventId s.subscriptionId).write := by
  induction targets generalizing d with
  | nil => exact fun _ hs => absurd hs List.not_mem_nil
  | cons s rest ih =>
    rw [List.length_cons, IdSupply.upcoming, List.nodup_cons] at distinct
    rw [List.length_cons, IdSupply.upcoming, List.forall_mem_cons] at fresh
    obtain ⟨hnext, hrest⟩ := fresh
    have hkey : (initialRow (d.initialAttempt e now s)).dispatchKey =
        (DispatchKey.initial e.eventId s.subscriptionId).write := rfl
    have hoffered : ∃ r ∈ (dispatchTo e now d s).tables.attempts,
        r.dispatchKey = (DispatchKey.initial e.eventId s.subscriptionId).write := by
      unfold dispatchTo Tables.offer
      dsimp only
      split
      · rename_i ht
        obtain ⟨old, ho, hold⟩ := List.any_eq_true.mp ht
        rcases Bool.or_eq_true_iff.mp hold with hi | hk
        · exact absurd (beq_iff_eq.mp hi) (hnext old ho)
        · exact ⟨old, ho, (beq_iff_eq.mp hk).trans hkey⟩
      · exact ⟨_, List.mem_append_right _ List.mem_cons_self, hkey⟩
    have hfresh : ∀ id ∈ (dispatchTo e now d s).ids.upcoming .attempt rest.length,
        ∀ r ∈ (dispatchTo e now d s).tables.attempts, r.attemptId ≠ id := by
      intro id hid r hr
      rcases d.tables.offer_attempts (initialRow (d.initialAttempt e now s)) with ha | ha
      · exact hrest id hid r (ha ▸ hr)
      · have hr' : r ∈ d.tables.attempts ++ [initialRow (d.initialAttempt e now s)] := ha ▸ hr
        rcases List.mem_append.mp hr' with hr' | hr'
        · exact hrest id hid r hr'
        · rw [List.mem_singleton.mp hr']
          rintro rfl
          exact distinct.1 hid
    intro x hx
    rcases List.mem_cons.mp hx with rfl | hx
    · obtain ⟨r, hr, hrk⟩ := hoffered
      obtain ⟨-, new, ha, -⟩ := dispatched_attempts e now rest (dispatchTo e now d x)
      exact ⟨r, by rw [List.foldl_cons, ha]; exact List.mem_append_left _ hr, hrk⟩
    · exact ih distinct.2 hfresh x hx

/-- If the event was not dispatched before, the attempts of its receivers are all new. -/
theorem exists_dispatched {e : Event} {now : Int} {targets : List Subscription} {d : Data}
    (keyed : ∀ r ∈ d.tables.attempts, r.IsInitial ∨ r.IsReplay)
    (unsent : ∀ r ∈ d.tables.attempts, r.IsInitial → r.eventId ≠ e.eventId)
    (distinct : (d.ids.upcoming .attempt targets.length).Nodup)
    (fresh : ∀ id ∈ d.ids.upcoming .attempt targets.length,
      ∀ r ∈ d.tables.attempts, r.attemptId ≠ id) {new : List AttemptRow}
    (hnew : (targets.foldl (dispatchTo e now) d).tables.attempts = d.tables.attempts ++ new) :
    ∀ s ∈ targets, ∃ r ∈ new,
      r.dispatchKey = (DispatchKey.initial e.eventId s.subscriptionId).write := by
  intro s hs
  have hinitial : ∃ r ∈ (targets.foldl (dispatchTo e now) d).tables.attempts,
      r.dispatchKey = (DispatchKey.initial e.eventId s.subscriptionId).write :=
    exists_initial distinct fresh s hs
  obtain ⟨r, hr, hk⟩ := hinitial
  rw [hnew] at hr
  refine ⟨r, (List.mem_append.mp hr).resolve_left fun hold => ?_, hk⟩
  rcases keyed r hold with hi | hi
  · exact unsent r hold hi (DispatchKey.initial_injective (hi.symm.trans hk)).1
  · exact hi.not_initial _ _ hk

end Data

/-! ## Events that were dispatched -/

namespace Tables

/-- Attempts come from dispatch or replay, and those from dispatch only from events that are marked
as dispatched. -/
structure Routed (t : Tables) : Prop where
  keyed : ∀ r ∈ t.attempts, r.IsInitial ∨ r.IsReplay
  dispatched : ∀ r ∈ t.attempts, r.IsInitial → ∀ e ∈ t.events, e.eventId = r.eventId →
    e.dispatchedAt.isSome

theorem routed_empty : empty.Routed :=
  ⟨fun _ h => absurd h List.not_mem_nil, fun _ h => absurd h List.not_mem_nil⟩

theorem Edit.routed {ends : Ending → Prop} {t t' : Tables} (h : Edit ends t t') (hs : t.Sound)
    (ht : t.Routed) : t'.Routed := by
  have hd : ∀ e' ∈ t'.events, (∀ e ∈ t.events, e.eventId ≠ e'.eventId) ∨
      ∃ e ∈ t.events, e.eventId = e'.eventId ∧ (e.dispatchedAt.isSome → e'.dispatchedAt.isSome) := by
    cases h with
    | register h => exact h.dispatched
    | claim c now =>
      have he : (t.claim c now).2.events = t.events := by
        unfold Tables.claim
        split <;> rfl
      rw [he]
      exact fun e hm => .inr ⟨e, hm, rfl, id⟩
    | finish e _ _ h =>
      obtain rfl := finish?_eq_ok hs.referencesUnchecked h
      exact fun e hm => .inr ⟨e, hm, rfl, id⟩
  obtain ⟨f, ha, hf⟩ := h.attempts hs.toIndexed
  have hold : ∀ r' ∈ t'.attempts, ∃ r ∈ t.attempts, r'.eventId = r.eventId ∧
      r'.subscriptionId = r.subscriptionId ∧ r'.dispatchKey = r.dispatchKey := by
    intro r' hr'
    rw [ha] at hr'
    obtain ⟨r, hr, rfl⟩ := List.mem_map.mp hr'
    obtain ⟨-, -, he, hsub, hk⟩ := (hf r hr).frame
    exact ⟨r, hr, he, hsub, hk⟩
  refine ⟨fun r' hr' => ?_, fun r' hr' hi e' he' hid => ?_⟩
  · obtain ⟨r, hr, he, hsub, hk⟩ := hold r' hr'
    unfold AttemptRow.IsInitial AttemptRow.IsReplay
    rw [he, hsub, hk]
    exact ht.keyed r hr
  · obtain ⟨r, hr, he, hsub, hk⟩ := hold r' hr'
    unfold AttemptRow.IsInitial at hi
    rw [he, hsub, hk] at hi
    rcases hd e' he' with hnew | ⟨e, hm, hei, hkeep⟩
    · obtain ⟨e, hm, hei, -⟩ := (hs.places r hr).event
      exact absurd (hei.trans (he.symm.trans hid.symm)) (hnew e hm)
    · exact hkeep (ht.dispatched r hr hi e hm (hei.trans (hid.trans he)))

end Tables

namespace Data

theorem routed_fanOut {d : Data} (h : d.tables.Routed) (e : Event) (now : Int) :
    (d.fanOut e now).tables.Routed := by
  obtain ⟨he, new, ha, hp⟩ := dispatched_attempts e now (d.receivers e) d
  refine ⟨fun r hr => ?_, fun r hr hi x hx hid => ?_⟩
  · change r ∈ ((d.receivers e).foldl (dispatchTo e now) d).tables.attempts at hr
    rw [ha] at hr
    rcases List.mem_append.mp hr with hr | hr
    · exact h.keyed r hr
    · obtain ⟨s, -, hd⟩ := hp r hr
      exact .inl hd.isInitial
  · change r ∈ ((d.receivers e).foldl (dispatchTo e now) d).tables.attempts at hr
    rw [ha] at hr
    obtain ⟨y, hy, rfl⟩ := Tables.mem_updateRows.mp hx
    rw [he] at hy
    by_cases hsel : y.eventId = e.eventId ∧ y.dispatchedAt = none
    · simp [hsel]
    · have hyx : (if y.eventId == e.eventId && y.dispatchedAt.isNone then
          { y with dispatchedAt := some now } else y) = y := by
        rw [if_neg (by simpa using hsel)]
      rw [hyx] at hid ⊢
      rcases List.mem_append.mp hr with hr | hr
      · exact h.dispatched r hr hi y hy hid
      · obtain ⟨s, -, hd⟩ := hp r hr
        have hye : y.eventId = e.eventId := hid.trans hd.eventId
        cases hd : y.dispatchedAt with
        | none => exact absurd ⟨hye, hd⟩ hsel
        | some time => rfl

theorem routed_replayAll {d : Data} (h : d.tables.Routed) (eventId application : Uuid) (now : Int)
    (targets : List Subscription) :
    (d.replayAll eventId application now targets).tables.Routed := by
  obtain ⟨he, new, ha, hp⟩ := replayed_attempts eventId application now targets d
  refine ⟨fun r hr => ?_, fun r hr hi x hx hid => ?_⟩
  · rw [ha] at hr
    rcases List.mem_append.mp hr with hr | hr
    · exact h.keyed r hr
    · exact .inr (hp r hr).2
  · rw [ha] at hr
    rw [he] at hx
    rcases List.mem_append.mp hr with hr | hr
    · exact h.dispatched r hr hi x hx hid
    · exact absurd hi ((hp r hr).2.not_initial _ _)

/-- The data with an event that is new. -/
def stored (d : Data) (e : Event) : Data :=
  { d with tables := { d.tables with events := d.tables.events ++ [e] } }

theorem registers_stored {d : Data} {e : Event} (h : d.tables.event? e.eventId = none) :
    d.tables.Registers (d.stored e).tables := by
  have hr := Tables.registers_insertEvent d.tables e
  rw [Tables.insertEvent, h, Option.isSome_none, if_neg Bool.false_ne_true] at hr
  exact hr

theorem routed_ingest {d : Data} (h : d.tables.Routed) (hs : d.tables.Sound) (e : Event)
    (now : Int) : (d.ingest e now).tables.Routed := by
  unfold ingest
  cases he : d.tables.event? e.eventId with
  | none =>
    have hr : Tables.Edit (fun _ => False) d.tables (d.stored e).tables :=
      .register (registers_stored he)
    exact routed_fanOut (d := d.stored e) (hr.routed hs h) e now
  | some stored =>
    dsimp only
    split
    · exact h
    · exact routed_fanOut h stored now

end Data

namespace Call

/-- Calls keep events marked of which a dispatch has left an attempt. -/
theorem routed_after {x : Call} (hi : x.before.IsIdle) (hs : x.before.tables.Sound)
    (h : x.before.tables.Routed) : x.after.tables.Routed := by
  rcases effect hi with he | ⟨e, now, -, -, -, ht⟩ | ⟨eventId, app, -, now, -, targets, -, -, -, ht⟩
  · exact he.routed hs h
  · rw [ht]
    exact Data.routed_ingest h hs e now
  · rw [ht]
    exact Data.routed_replayAll h eventId app now targets

end Call
end WebhookDelivery
