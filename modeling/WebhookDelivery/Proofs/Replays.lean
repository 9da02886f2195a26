import WebhookDelivery.Proofs.NextClaim
import WebhookDelivery.Proofs.OpenPairs
import WebhookDelivery.Proofs.Programs
import WebhookDelivery.Proofs.Recovery

/-!
# WebhookDelivery.Proofs.Replays

What a replay gives, what it adds, and when it is refused.

* `Tables.IsTarget`, `Tables.RefusesReplay`: to which subscriptions an event is replayed, and why it
  is not. `Tables.CanReplay`: the rows that are read for it can be read back.
* `replayTargets_ok`, `replayTargets_refused`, `replayTargets_error`: the choice of the targets.
* `World.IsReadyFor`: what the targets that are left rely on. `replayTo_ok` is the step that serves one
  of them, `mapM_replayTo_ok` and `mapM_replayTo_error` are about all of them.
* `replay_refused`, `replay_granted`, `replay_error`: the three ends of a replay.
* `replay_adds_missing_attempts`: the result about all stores that arise from requests, from changes
  of rows and from insertions of attempts.
-/

namespace WebhookDelivery

/-! ## What a replay is to do -/

/-- The row of a new attempt to deliver an event to a subscription, due when it is created. -/
structure AttemptRow.IsAddedFor (eventId application : Uuid) (now : Int) (s : Subscription)
    (r : AttemptRow) : Prop extends r.IsFresh where
  eventId : r.eventId = eventId
  application : r.applicationId = application
  subscription : r.subscriptionId = s.subscriptionId
  createdAt : r.createdAt = now
  delayUntil : r.delayUntil = some now

namespace Tables

/-- The event of an identifier, in an application. -/
structure IsEventOf (t : Tables) (eventId application : Uuid) (e : Event) : Prop where
  stored : e ∈ t.events
  eventId : e.eventId = eventId
  application : e.applicationId = application

/-- The subscription is the one that is asked for, or else any enabled one, in an application. -/
structure IsCandidate (t : Tables) (application : Uuid) (asked : Option Uuid) (s : Subscription) :
    Prop where
  stored : s ∈ t.subscriptions
  application : s.applicationId = application
  chosen : match asked with
    | some id => s.subscriptionId = id
    | none => s.isEnabled = true

/-- The event goes to the subscription: it is enabled, and was asked for or accepts the event. -/
structure IsTarget (t : Tables) (e : Event) (asked : Option Uuid) (s : Subscription) : Prop
    extends t.IsCandidate e.applicationId asked s where
  isEnabled : s.isEnabled = true
  accepts : asked = none →
    e.eventType ∈ s.eventTypes ∧ Entries.get? e.labels s.labelKey = some s.labelValue

/-- Why the replay of an event is refused. -/
inductive RefusesReplay (t : Tables) (eventId application : Uuid) :
    (asked : Option Uuid) → EngineError → Prop where
  | noEvent {asked : Option Uuid} (event : ¬ ∃ e, t.IsEventOf eventId application e) :
    t.RefusesReplay eventId application asked (.notFound "Event" eventId.write)
  | noSubscription {id : Uuid} (event : ∃ e, t.IsEventOf eventId application e)
      (subscription : ¬ ∃ s, t.IsCandidate application (some id) s) :
    t.RefusesReplay eventId application (some id) (.notFound "Subscription" id.write)
  | disabled {id : Uuid} (event : ∃ e, t.IsEventOf eventId application e)
      (subscription : ∃ s, t.IsCandidate application (some id) s ∧ s.isEnabled = false) :
    t.RefusesReplay eventId application (some id)
      (.validation "subscription_id" ("Subscription " ++ id.write ++ " is disabled"))

/-- What is read for a replay can be read: the event, the subscriptions among which its targets are
chosen, and the newest open attempt of each target. -/
structure CanReplay (t : Tables) (eventId application : Uuid) (asked : Option Uuid) : Prop where
  event : ∀ e, t.IsEventOf eventId application e → e.check = .ok e
  candidates : (∃ e, t.IsEventOf eventId application e) →
    ∀ s, t.IsCandidate application asked s → s.readRow = .ok s
  attempts : ∀ e, t.IsEventOf eventId application e → ∀ s, t.IsTarget e asked s →
    ∀ r, t.openAttempt? eventId s.subscriptionId = some r → r.IsReadable

/-- The targets of a replay, oldest first. -/
structure ListsTargets (t : Tables) (e : Event) (asked : Option Uuid)
    (targets : List Subscription) : Prop where
  mem_iff : ∀ s, s ∈ targets ↔ t.IsTarget e asked s
  distinct : (targets.map (·.subscriptionId)).Nodup
  oldestFirst : targets.Pairwise fun a b => a.createdAt.micros ≤ b.createdAt.micros

/-- The attempt is stored, has not ended, and is to deliver the event to the subscription. -/
def HasOpen (t : Tables) (eventId : Uuid) (s : Subscription) (a : Attempt) : Prop :=
  ∃ r ∈ t.attempts, r.isOpen = true ∧ r.eventId = eventId ∧ r.subscriptionId = s.subscriptionId ∧
    a = r.record

/-- Every target has the open attempt that is given for it once the rows are added, and these are new
attempts for the targets that had none. -/
structure Replays (t : Tables) (e : Event) (asked : Option Uuid) (now : Int)
    (targets : List Subscription) (attempts : List Attempt) (added : List AttemptRow) : Prop where
  lists : t.ListsTargets e asked targets
  opens : List.Forall₂ (HasOpen { t with attempts := t.attempts ++ added } e.eventId) targets attempts
  adds : List.Forall₂ (AttemptRow.IsAddedFor e.eventId e.applicationId now)
    (targets.filter fun s => t.countOpen e.eventId s.subscriptionId = 0) added

end Tables

/-- The next identifiers are new: those of attempts, and those of replays among the keys. -/
structure Data.HasReplayDraws (d : Data) (eventId : Uuid) (n : Nat) : Prop
    extends d.HasDraws n where
  unused : ∀ s, ∀ draw ∈ d.ids.upcoming .replay n, ∀ r ∈ d.tables.attempts,
    r.dispatchKey ≠ (DispatchKey.replay eventId s draw).write

/-! ## Rows by their identifiers -/

namespace Tables

variable {t : Tables} {application id : Uuid}

theorem inScope_event?_eq_some (h : t.Catalogued) {e : Event} :
    Engine.inScope application Event.applicationId (t.event? id) = some e ↔
      t.IsEventOf id application e := by
  rw [event?, inScope_find?_eq_some h.eventIds]
  constructor
  · rintro ⟨hstored, hid, happ⟩
    exact ⟨hstored, hid, happ⟩
  · rintro ⟨hstored, hid, happ⟩
    exact ⟨hstored, hid, happ⟩

theorem IsEventOf.unique {e f : Event} (he : t.IsEventOf id application e)
    (hf : t.IsEventOf id application f) (h : t.Catalogued) : e = f :=
  Option.some.inj (((inScope_event?_eq_some h).mpr he).symm.trans ((inScope_event?_eq_some h).mpr hf))

/-- If the replay of a stored event to a subscription is not refused, the subscription can be
chosen. -/
theorem exists_candidate_of_granted (event : ∃ e, t.IsEventOf id application e) {subscription : Uuid}
    (granted : ¬ ∃ x, t.RefusesReplay id application (some subscription) x) :
    ∃ s, t.IsCandidate application (some subscription) s ∧ s.isEnabled = true := by
  by_contra hno
  push Not at hno
  by_cases hs : ∃ s, t.IsCandidate application (some subscription) s
  · obtain ⟨s, hs⟩ := hs
    exact granted ⟨_, .disabled event ⟨s, hs, by simpa using hno s hs⟩⟩
  · exact granted ⟨_, .noSubscription event hs⟩

/-- If a replay cannot be done, although its event and all candidates can be read, the open attempt of
a target cannot. -/
theorem exists_unreadable {asked : Option Uuid} {e : Event} (h : t.Catalogued)
    (he : t.IsEventOf id application e) (event : e.check = .ok e)
    (candidates : ∀ s, t.IsCandidate application asked s → s.readRow = .ok s)
    (unreadable : ¬ t.CanReplay id application asked) :
    ∃ s, t.IsTarget e asked s ∧
      ∃ r, t.openAttempt? id s.subscriptionId = some r ∧ ¬ r.IsReadable := by
  by_contra hno
  push Not at hno
  refine unreadable ⟨fun f hf => ?_, fun _ => candidates, fun f hf => ?_⟩
  · rwa [hf.unique he h]
  · rwa [hf.unique he h]

theorem inScope_subscription?_eq_some (h : t.Catalogued) {s : Subscription} :
    Engine.inScope application Subscription.applicationId (t.subscription? id) = some s ↔
      t.IsCandidate application (some id) s := by
  rw [subscription?, inScope_find?_eq_some h.subscriptionIds]
  constructor
  · rintro ⟨hstored, hid, happ⟩
    exact ⟨hstored, happ, hid⟩
  · rintro ⟨hstored, happ, hid⟩
    exact ⟨hstored, hid, happ⟩

theorem mem_subscriptionsOf_iff {s : Subscription} :
    s ∈ t.subscriptionsOf application true ↔ t.IsCandidate application none s := by
  rw [subscriptionsOf, List.mem_mergeSort, List.mem_filter]
  simp only [Bool.and_eq_true, beq_iff_eq, Bool.not_true, Bool.false_or]
  constructor
  · rintro ⟨hstored, happ, henabled⟩
    exact ⟨hstored, happ, henabled⟩
  · rintro ⟨hstored, happ, henabled⟩
    exact ⟨hstored, happ, henabled⟩

theorem pairwise_subscriptionsOf (enabledOnly : Bool) :
    (t.subscriptionsOf application enabledOnly).Pairwise
      fun a b => a.createdAt.micros ≤ b.createdAt.micros := by
  refine (List.pairwise_mergeSort ?_ ?_ _).imp ?_
  all_goals
    simp only [Uuid.le, Bool.or_eq_true, decide_eq_true_eq, Bool.and_eq_true, beq_iff_eq]
    intros
    omega

/-- The event goes to all subscriptions of its application that accept it. -/
theorem listsTargets_matching (h : t.Catalogued) (e : Event) :
    t.ListsTargets e none (Subscription.matching (t.subscriptionsOf e.applicationId true) e) where
  mem_iff s := by
    rw [Subscription.matching, List.mem_filter, mem_subscriptionsOf_iff]
    simp only [Bool.and_eq_true, beq_iff_eq, Subscription.accepts, List.contains_iff_mem]
    constructor
    · rintro ⟨hs, -, ⟨henabled, htype⟩, hlabel⟩
      exact ⟨hs, henabled, fun _ => ⟨htype, hlabel⟩⟩
    · rintro ⟨hs, henabled, haccepts⟩
      exact ⟨hs, hs.application, ⟨henabled, (haccepts rfl).1⟩, (haccepts rfl).2⟩
  distinct := Data.nodup_matching h e.applicationId e
  oldestFirst := (pairwise_subscriptionsOf true).filter _

/-- The event goes to the subscription that is asked for. -/
theorem listsTargets_singleton (h : t.Catalogued) {e : Event} {s : Subscription}
    (hs : t.IsCandidate e.applicationId (some id) s) (henabled : s.isEnabled = true) :
    t.ListsTargets e (some id) [s] where
  mem_iff x := by
    rw [List.mem_singleton]
    constructor
    · rintro rfl
      exact ⟨hs, henabled, fun hnone => absurd hnone (Option.some_ne_none id)⟩
    · intro hx
      have hsame := (inScope_subscription?_eq_some h).mpr hx.toIsCandidate
      rw [(inScope_subscription?_eq_some h).mpr hs] at hsame
      exact (Option.some.inj hsame).symm
  distinct := List.nodup_singleton _
  oldestFirst := List.pairwise_singleton _ _

theorem openAttempt?_eq_some {event subscription : Uuid} {r : AttemptRow}
    (h : t.openAttempt? event subscription = some r) :
    r ∈ t.attempts ∧ r.isOpen = true ∧ r.eventId = event ∧ r.subscriptionId = subscription := by
  obtain ⟨hr, hp⟩ := List.mem_filter.mp (mem_of_least? h)
  simp only [Bool.and_eq_true, beq_iff_eq] at hp
  exact ⟨hr, hp.2, hp.1.1, hp.1.2⟩

theorem decide_countOpen_eq_zero (t : Tables) (event subscription : Uuid) :
    decide (t.countOpen event subscription = 0) = (t.openAttempt? event subscription).isNone := by
  rw [Bool.eq_iff_iff, decide_eq_true_eq, ← openAttempt?_eq_none_iff, Option.isNone_iff_eq_none]

/-- An attempt for one subscription is none for another. -/
theorem openAttempt?_concat_of_ne (event : Uuid) {subscription : Uuid} {r : AttemptRow}
    (h : r.subscriptionId ≠ subscription) :
    openAttempt? { t with attempts := t.attempts ++ [r] } event subscription =
      t.openAttempt? event subscription := by
  simp [openAttempt?, List.filter_append, h]

/-- Attempts without a response do not refer to one that is missing. -/
theorem dangling_append {rows : List AttemptRow} (h : ∀ r ∈ rows, r.responseId = none) :
    dangling { t with attempts := t.attempts ++ rows } = t.dangling := by
  have hrows : dangling { t with attempts := rows } = [] := by
    rw [dangling, List.filterMap_eq_nil_iff]
    intro r hr
    rw [h r hr]
  unfold dangling at hrows ⊢
  rw [List.filterMap_append]
  exact (congrArg _ hrows).trans (List.append_nil _)

end Tables

namespace AttemptRow

theorem isAddedFor_new (id application eventId : Uuid) (now : Int) (s : Subscription)
    (key : String) : IsAddedFor eventId application now s
      (.new (.new id application eventId s.subscriptionId now now) key) where
  toIsFresh := isFresh_new ..
  eventId := rfl
  application := rfl
  subscription := rfl
  createdAt := ClockTime.micros_utc now
  delayUntil := congrArg some (ClockTime.micros_utc now)

end AttemptRow

/-- Where all rows can be read back, every replay can be done. -/
theorem Tables.IsLegible.canReplay {t : Tables} (h : t.IsLegible) (eventId application : Uuid)
    (asked : Option Uuid) : t.CanReplay eventId application asked where
  event e he := h.readable.events e he.stored
  candidates _ _ hs := h.subscription hs.stored
  attempts _ _ _ _ _ hr := h.attempt (openAttempt?_eq_some hr).1

/-! ## The choice of targets -/

namespace Engine

section

variable {w : World} (ho : w.store.isOpen = true) (hl : w.store.tables.lost = [])
  (hc : w.store.tables.Catalogued) {e : Event}
include ho hl hc

theorem replayTargets_ok {asked : Option Uuid}
    (readable : ∀ s, w.store.tables.IsCandidate e.applicationId asked s → s.readRow = .ok s)
    (granted : ∀ id, asked = some id → ∃ s, w.store.tables.IsCandidate e.applicationId (some id) s ∧
      s.isEnabled = true) :
    ∃ targets, replayTargets e e.applicationId asked w = (.ok targets, w) ∧
      w.store.tables.ListsTargets e asked targets := by
  cases asked with
  | none =>
    have hread := mapM_eq_ok (f := id) fun s hs => readable s (Tables.mem_subscriptionsOf_iff.mp hs)
    refine ⟨_, ?_, Tables.listsTargets_matching hc e⟩
    rw [replayTargets, bind_apply, listSubscriptions_apply ho hl, hread, List.map_id]
    rfl
  | some id =>
    obtain ⟨s, hs, henabled⟩ := granted id rfl
    refine ⟨[s], ?_, Tables.listsTargets_singleton hc hs henabled⟩
    rw [replayTargets, bind_apply, getSubscription_apply ho hl,
      (Tables.inScope_subscription?_eq_some hc).mpr hs, Option.mapM_some, readable s hs]
    change (if s.isEnabled = true then (pure [s] : Engine _) else _) w = _
    rw [if_pos henabled]
    rfl

theorem replayTargets_refused {eventId application : Uuid} {asked : Option Uuid} {x : EngineError}
    (he : w.store.tables.IsEventOf eventId application e)
    (readable : ∀ s, w.store.tables.IsCandidate application asked s → s.readRow = .ok s)
    (hx : w.store.tables.RefusesReplay eventId application asked x) :
    replayTargets e application asked w = (.error (.engine x), w) := by
  cases hx with
  | noEvent event => exact absurd ⟨e, he⟩ event
  | @noSubscription id _ subscription =>
    have hnone : inScope application Subscription.applicationId
        (w.store.tables.subscription? id) = none := by
      rw [Option.eq_none_iff_forall_ne_some]
      exact fun s hs => subscription ⟨s, (Tables.inScope_subscription?_eq_some hc).mp hs⟩
    rw [replayTargets, bind_apply, getSubscription_apply ho hl, hnone]
    rfl
  | @disabled id _ subscription =>
    obtain ⟨s, hs, hdisabled⟩ := subscription
    rw [replayTargets, bind_apply, getSubscription_apply ho hl,
      (Tables.inScope_subscription?_eq_some hc).mpr hs, Option.mapM_some, readable s hs]
    change (if s.isEnabled = true then (pure [s] : Engine _) else _) w = _
    rw [if_neg (by simp [hdisabled])]
    rfl

theorem replayTargets_error {application : Uuid} {asked : Option Uuid}
    (h : ∃ s, w.store.tables.IsCandidate application asked s ∧ s.readRow ≠ .ok s) :
    ∃ x, replayTargets e application asked w = (.error (.record x), w) := by
  obtain ⟨s, hs, hbad⟩ := h
  have hread : ∀ x, s.readRow ≠ .ok x := by
    intro x hx
    exact hbad (by rw [hx, Subscription.eq_of_readRow hx])
  cases asked with
  | none =>
    rw [replayTargets, bind_apply, listSubscriptions_apply ho hl]
    cases hrows : (w.store.tables.subscriptionsOf application true).mapM Subscription.readRow with
    | error x => exact ⟨x, rfl⟩
    | ok found =>
      obtain ⟨x, hx⟩ := ok_of_mapM hrows s (Tables.mem_subscriptionsOf_iff.mpr hs)
      exact absurd hx (hread x)
  | some id =>
    rw [replayTargets, bind_apply, getSubscription_apply ho hl,
      (Tables.inScope_subscription?_eq_some hc).mpr hs, Option.mapM_some]
    cases hrow : s.readRow with
    | error x => exact ⟨x, rfl⟩
    | ok x => exact absurd hrow (hread x)

end

end Engine

/-! ## One target -/

/-- The row that is added when an event is replayed to a subscription. -/
def Data.replayRow (d : Data) (eventId application : Uuid) (now : Int) (s : Subscription) :
    AttemptRow :=
  .new (d.replayAttempt eventId application now s)
    (DispatchKey.replay eventId s.subscriptionId (d.ids.next .replay)).write

/-- It is read back as the attempt that it was created for. -/
theorem Data.record_replayRow (d : Data) (eventId application : Uuid) (now : Int) (s : Subscription) :
    (d.replayRow eventId application now s).record = d.replayAttempt eventId application now s := by
  simp [AttemptRow.record, replayRow, AttemptRow.new, replayAttempt, Attempt.new,
    ClockTime.micros_utc]

/-- The world with a new attempt. -/
def World.addReplay (eventId application : Uuid) (now : Int) (s : Subscription) (w : World) : World :=
  { w with
    ids := (w.ids.advance .attempt).advance .replay
    store := { w.store with tables := { w.store.tables with
      attempts := w.store.tables.attempts ++ [w.data.replayRow eventId application now s] } } }

/-- What the targets that are left rely on in the transaction of a replay. -/
structure World.IsReadyFor (eventId application : Uuid) (targets : List Subscription) (w : World) :
    Prop where
  isOpen : w.store.isOpen = true
  inTransaction : w.store.inTransaction = true
  lost : w.store.tables.lost = []
  places : ∀ s ∈ targets, w.store.tables.Places application eventId s.subscriptionId
  distinct : (targets.map (·.subscriptionId)).Nodup
  draws : w.data.HasDraws targets.length
  unused : ∀ s ∈ targets, ∀ draw ∈ w.ids.upcoming .replay targets.length,
    ∀ r ∈ w.store.tables.attempts,
      r.dispatchKey ≠ (DispatchKey.replay eventId s.subscriptionId draw).write

namespace World.IsReadyFor

variable {eventId application : Uuid} {s : Subscription} {targets : List Subscription} {w : World}

theorem ne (h : w.IsReadyFor eventId application (s :: targets)) {x : Subscription}
    (hx : x ∈ targets) : s.subscriptionId ≠ x.subscriptionId := by
  intro hsame
  exact (List.nodup_cons.mp h.distinct).1 (List.mem_map.mpr ⟨x, hx, hsame.symm⟩)

/-- A target that has an open attempt is passed over. -/
theorem skip (h : w.IsReadyFor eventId application (s :: targets)) :
    w.IsReadyFor eventId application targets where
  isOpen := h.isOpen
  inTransaction := h.inTransaction
  lost := h.lost
  places := (List.forall_mem_cons.mp h.places).2
  distinct := (List.nodup_cons.mp h.distinct).2
  draws := h.draws.mono (Nat.le_succ targets.length)
  unused x hx draw hdraw := h.unused x (List.mem_cons_of_mem _ hx) draw
    ((w.ids.upcoming_sublist .replay (Nat.le_succ targets.length)).mem hdraw)

/-- The row of a target is new by its identifier and its key. -/
theorem isNew (h : w.IsReadyFor eventId application (s :: targets)) (now : Int) :
    (∀ r ∈ w.store.tables.attempts,
      r.attemptId ≠ (w.data.replayRow eventId application now s).attemptId) ∧
    ∀ r ∈ w.store.tables.attempts,
      r.dispatchKey ≠ (w.data.replayRow eventId application now s).dispatchKey :=
  ⟨h.draws.next.1, h.unused s List.mem_cons_self _ List.mem_cons_self⟩

/-- A target that has none gets a new one. -/
theorem add (h : w.IsReadyFor eventId application (s :: targets)) (now : Int) :
    (w.addReplay eventId application now s).IsReadyFor eventId application targets where
  isOpen := h.isOpen
  inTransaction := h.inTransaction
  lost := h.lost
  places x hx := ((List.forall_mem_cons.mp h.places).2 x hx).congr rfl rfl
  distinct := (List.nodup_cons.mp h.distinct).2
  draws := by
    have hdraws := h.draws.next.2 (w.data.replayRow eventId application now s) rfl
    have hids : ((w.ids.advance .attempt).advance .replay).upcoming .attempt targets.length =
        (w.ids.advance .attempt).upcoming .attempt targets.length :=
      IdSupply.upcoming_advance_of_ne _ (by decide) _
    constructor
    · exact hids ▸ hdraws.distinct
    · exact fun id hid => hdraws.fresh id (hids ▸ hid)
  unused x hx draw hdraw r hr := by
    rcases List.mem_append.mp hr with hr | hr
    · refine h.unused x (List.mem_cons_of_mem _ hx) draw (List.mem_cons_of_mem _ ?_) r hr
      have hids : ((w.ids.advance .replay).advance .attempt).upcoming .replay targets.length =
          (w.ids.advance .replay).upcoming .replay targets.length :=
        IdSupply.upcoming_advance_of_ne _ (by decide) _
      rw [← hids]
      exact hdraw
    · -- The new row is for another subscription, and the key tells of it.
      rw [List.mem_singleton.mp hr]
      exact fun hsame => h.ne hx (DispatchKey.replay_injective hsame).2.1

/-- A new attempt for one target leaves those of the others as they were. -/
theorem openAttempt?_add (h : w.IsReadyFor eventId application (s :: targets)) (now : Int) :
    ∀ x ∈ targets,
      (w.addReplay eventId application now s).store.tables.openAttempt? eventId x.subscriptionId =
        w.store.tables.openAttempt? eventId x.subscriptionId :=
  fun _ hx => Tables.openAttempt?_concat_of_ne eventId (h.ne hx)

end World.IsReadyFor

namespace Engine

/-- The insertion of an attempt in a transaction is one statement. -/
theorem insertAttempt_apply {w : World} (ho : w.store.isOpen = true)
    (ht : w.store.inTransaction = true) (hl : w.store.tables.lost = []) (a : Attempt) (key : String)
    (fits : Fits a.retryCount) {isNew : Bool} {t : Tables}
    (h : w.store.tables.insertAttempt (.new a key) = .ok (isNew, t)) :
    insertAttempt a key w = (.ok isNew, { w with store := { w.store with tables := t } }) := by
  unfold insertAttempt atomically
  rw [if_neg (by simp [ho]), if_pos ht, bind_apply, touch_apply hl]
  dsimp only
  rw [bind_apply, checkInteger_apply fits]
  dsimp only
  rw [statement_apply, h]

variable {eventId application : Uuid} (now : Int) {s : Subscription} {targets : List Subscription}
  {w : World}

/-- The open attempt of a target is read. -/
theorem replayTo_of_open (h : w.IsReadyFor eventId application (s :: targets)) {r : AttemptRow}
    (hr : w.store.tables.openAttempt? eventId s.subscriptionId = some r) :
    replayTo eventId application now s w = (r.read.mapError .record, w) := by
  rw [replayTo, bind_apply, findOpenAttempt_apply h.isOpen h.lost, hr, Option.mapM_some]
  cases r.read <;> rfl

/-- An attempt is added for a target that has no open one. -/
theorem replayTo_of_none (h : w.IsReadyFor eventId application (s :: targets))
    (hr : w.store.tables.openAttempt? eventId s.subscriptionId = none) :
    replayTo eventId application now s w = (.ok (w.data.replayRow eventId application now s).record,
      w.addReplay eventId application now s) := by
  obtain ⟨hfresh, hunused⟩ := h.isNew now
  obtain ⟨hfree, hoffer⟩ := Tables.offer_of_new hfresh hunused
  have hinsert := Tables.insertAttempt_eq_offer (r := w.data.replayRow eventId application now s)
    (h.places s List.mem_cons_self)
  rw [hfree, hoffer] at hinsert
  have hzero : Fits 0 := ⟨by decide, by decide⟩
  have hrun := insertAttempt_apply
    (w := { w with ids := (w.ids.advance .attempt).advance .replay })
    (by exact h.isOpen) (by exact h.inTransaction) (by exact h.lost)
    (w.data.replayAttempt eventId application now s)
    (DispatchKey.replay eventId s.subscriptionId (w.ids.next .replay)).write hzero
    (by exact hinsert)
  rw [replayTo, bind_apply, findOpenAttempt_apply h.isOpen h.lost, hr, Option.mapM_none]
  change (insertAttempt (w.data.replayAttempt eventId application now s)
      (DispatchKey.replay eventId s.subscriptionId (w.ids.next .replay)).write >>= fun _ =>
    pure (w.data.replayAttempt eventId application now s))
      { w with ids := (w.ids.advance .attempt).advance .replay } = _
  rw [bind_apply, hrun, Data.record_replayRow]
  rfl

/-- If the open attempt of a target can be read, the target has one afterwards, and a new row if it
had none. The others are left alone. -/
theorem replayTo_ok (h : w.IsReadyFor eventId application (s :: targets))
    (readable : ∀ r, w.store.tables.openAttempt? eventId s.subscriptionId = some r → r.IsReadable) :
    ∃ a added v, replayTo eventId application now s w = (.ok a, v) ∧
      v.IsReadyFor eventId application targets ∧
      (∀ x ∈ targets, v.store.tables.openAttempt? eventId x.subscriptionId =
        w.store.tables.openAttempt? eventId x.subscriptionId) ∧
      v.store = { w.store with tables := { w.store.tables with
        attempts := w.store.tables.attempts ++ added } } ∧
      v.store.tables.HasOpen eventId s a ∧
      List.Forall₂ (AttemptRow.IsAddedFor eventId application now) ([s].filter fun s =>
        (w.store.tables.openAttempt? eventId s.subscriptionId).isNone) added := by
  cases hopen : w.store.tables.openAttempt? eventId s.subscriptionId with
  | some r =>
    have hread : r.read = .ok r.record := AttemptRow.read_eq_ok_iff.mpr ⟨readable r hopen, rfl⟩
    obtain ⟨hr, hopened, hevent, hsubscription⟩ := Tables.openAttempt?_eq_some hopen
    refine ⟨r.record, [], w, ?_, h.skip, fun _ _ => rfl, by simp,
      ⟨r, hr, hopened, hevent, hsubscription, rfl⟩, ?_⟩
    · rw [replayTo_of_open now h hopen, hread]
      rfl
    · rw [List.filter_cons_of_neg (by simp [hopen])]
      exact .nil
  | none =>
    have hrow := AttemptRow.isAddedFor_new (w.ids.next .attempt) application eventId now s
      (DispatchKey.replay eventId s.subscriptionId (w.ids.next .replay)).write
    refine ⟨_, [_], _, replayTo_of_none now h hopen, h.add now, h.openAttempt?_add now, rfl,
      ⟨_, List.mem_append_right _ List.mem_cons_self, hrow.isOpen, rfl, rfl, rfl⟩, ?_⟩
    rw [List.filter_cons_of_pos (by simp [hopen])]
    exact .cons hrow .nil

/-! ## All targets -/

theorem mapM_cons_apply {α β : Type} (f : α → Engine β) (x : α) (rest : List α) (w : World) :
    (x :: rest).mapM f w = match f x w with
      | (.ok y, v) => match rest.mapM f v with
        | (.ok more, u) => (.ok (y :: more), u)
        | (.error e, u) => (.error e, u)
      | (.error e, v) => (.error e, v) := by
  rw [List.mapM_cons, bind_apply]
  cases f x w with
  | mk result v =>
    cases result with
    | error e => rfl
    | ok y =>
      dsimp only
      rw [bind_apply]
      cases rest.mapM f v with
      | mk result u => cases result <;> rfl

/-- If the open attempts of targets can be read, each target has one in the end, and those that had
none have a new one. -/
theorem mapM_replayTo_ok (h : w.IsReadyFor eventId application targets)
    (readable : ∀ s ∈ targets, ∀ r,
      w.store.tables.openAttempt? eventId s.subscriptionId = some r → r.IsReadable) :
    ∃ attempts added v, targets.mapM (replayTo eventId application now) w = (.ok attempts, v) ∧
      v.store = { w.store with tables := { w.store.tables with
        attempts := w.store.tables.attempts ++ added } } ∧
      List.Forall₂ (v.store.tables.HasOpen eventId) targets attempts ∧
      List.Forall₂ (AttemptRow.IsAddedFor eventId application now) (targets.filter fun s =>
        (w.store.tables.openAttempt? eventId s.subscriptionId).isNone) added := by
  induction targets generalizing w with
  | nil => exact ⟨[], [], w, rfl, by simp, .nil, .nil⟩
  | cons s rest ih =>
    rw [List.forall_mem_cons] at readable
    obtain ⟨a, row, v, hstep, hready, hsame, hstore, ⟨r, hr, hopened⟩, hrow⟩ :=
      replayTo_ok now h readable.1
    have hrest : ∀ x ∈ rest, ∀ r,
        v.store.tables.openAttempt? eventId x.subscriptionId = some r → r.IsReadable :=
      fun x hx r hr => readable.2 x hx r ((hsame x hx).symm.trans hr)
    obtain ⟨attempts, added, u, hrun, hlast, hattempts, hadded⟩ := ih hready hrest
    refine ⟨a :: attempts, row ++ added, u, ?_, ?_, .cons ⟨r, ?_, hopened⟩ hattempts, ?_⟩
    · rw [mapM_cons_apply, hstep]
      dsimp only
      rw [hrun]
    · rw [hlast, hstore]
      simp
    · rw [hlast]
      exact List.mem_append_left _ hr
    · rw [← List.singleton_append, List.filter_append]
      rw [List.filter_congr fun x hx => by rw [hsame x hx]] at hadded
      exact List.rel_append hrow hadded

/-- An open attempt that cannot be read ends the replay. -/
theorem mapM_replayTo_error (h : w.IsReadyFor eventId application targets)
    (unreadable : ∃ s ∈ targets, ∃ r,
      w.store.tables.openAttempt? eventId s.subscriptionId = some r ∧ ¬ r.IsReadable) :
    ∃ x v, targets.mapM (replayTo eventId application now) w = (.error (.record x), v) := by
  induction targets generalizing w with
  | nil => simp at unreadable
  | cons s rest ih =>
    by_cases hs : ∀ r, w.store.tables.openAttempt? eventId s.subscriptionId = some r → r.IsReadable
    · obtain ⟨a, row, v, hstep, hready, hsame, -⟩ := replayTo_ok now h hs
      obtain ⟨x, hx, r, hr, hbad⟩ := unreadable
      have hrest : x ∈ rest :=
        (List.mem_cons.mp hx).resolve_left fun heq => hbad (hs r (heq ▸ hr))
      obtain ⟨e, u, hrun⟩ := ih hready ⟨x, hrest, r, (hsame x hrest).trans hr, hbad⟩
      refine ⟨e, u, ?_⟩
      rw [mapM_cons_apply, hstep]
      dsimp only
      rw [hrun]
    · push Not at hs
      obtain ⟨r, hr, hbad⟩ := hs
      cases hread : r.read with
      | ok a => exact absurd (AttemptRow.read_eq_ok_iff.mp hread).1 hbad
      | error e =>
        refine ⟨e, w, ?_⟩
        rw [mapM_cons_apply, replayTo_of_open now h hr, hread]
        rfl

end Engine

/-! ## The transaction -/

namespace Engine

variable {eventId application : Uuid} {now : Int} {targets : List Subscription} {w : World}

/-- What a replay does in its transaction. -/
def replayBody (eventId application : Uuid) (asked : Option Uuid) (now : Int) :
    Engine (List Attempt) := do
  match ← getEvent eventId (some application) with
  | none => throw (.engine (.notFound "Event" eventId.write))
  | some event =>
    let targets ← replayTargets event application asked
    targets.mapM (replayTo eventId application now)

theorem replay_eq (eventId application : Uuid) (asked : Option Uuid) (now : Int) :
    replay eventId application asked now = (do
      let attempts ← atomically (replayBody eventId application asked now)
      log .info replayLogger "Event replayed"
        [("event_id", .str eventId.write), ("application_id", .str application.write),
          ("attempts", .int attempts.length)]
      return attempts) := rfl

section

variable {asked : Option Uuid} {e : Event} {x : OperationError}

theorem replayBody_of_noEvent (ho : w.store.isOpen = true) (hl : w.store.tables.lost = [])
    (hc : w.store.tables.Catalogued)
    (event : ¬ ∃ e, w.store.tables.IsEventOf eventId application e) :
    replayBody eventId application asked now w =
      (.error (.engine (.notFound "Event" eventId.write)), w) := by
  have hnone : inScope application Event.applicationId (w.store.tables.event? eventId) = none := by
    rw [Option.eq_none_iff_forall_ne_some]
    exact fun e he => event ⟨e, (Tables.inScope_event?_eq_some hc).mp he⟩
  rw [replayBody, bind_apply, getEvent_apply ho hl, hnone]
  rfl

/-- The event is read, and goes to its targets. -/
theorem replayBody_of_event (ho : w.store.isOpen = true) (hl : w.store.tables.lost = [])
    (hc : w.store.tables.Catalogued) (event : w.store.tables.IsEventOf eventId application e) :
    replayBody eventId application asked now w = match e.check with
      | .ok e => (replayTargets e application asked >>= fun targets =>
          targets.mapM (replayTo eventId application now)) w
      | .error x => (.error (.record x), w) := by
  rw [replayBody, bind_apply, getEvent_apply ho hl, (Tables.inScope_event?_eq_some hc).mpr event,
    Option.mapM_some]
  cases e.check <;> rfl

/-- What breaks off leaves the tables as they were. -/
theorem replay_of_error (hi : w.store.IsIdle) {v : World}
    (h : replayBody eventId application asked now w.begun = (.error x, v)) :
    replay eventId application asked now w = (.error x.reported, { v with
      store := { v.store with tables := w.store.tables, inTransaction := false } }) := by
  rw [replay_eq, bind_apply, atomically_begun hi.isOpen hi.inTransaction h]
  rfl

/-- What refers to no response is kept. -/
theorem replay_of_ok (hi : w.store.IsIdle) {v : World} {attempts : List Attempt}
    (h : replayBody eventId application asked now w.begun = (.ok attempts, v))
    (kept : Tables.keepsReferences w.store.tables v.store.tables = true) :
    (replay eventId application asked now w).1 = .ok attempts ∧
      (replay eventId application asked now w).2.store =
        { v.store with inTransaction := false } := by
  rw [replay_eq, bind_apply, atomically_apply hi.isOpen hi.inTransaction h kept]
  exact ⟨rfl, rfl⟩

end

section

variable (hw : w.store.IsGrounded) {asked : Option Uuid}
include hw

theorem replay_refused {x : EngineError}
    (readable : w.store.tables.CanReplay eventId application asked)
    (hx : w.store.tables.RefusesReplay eventId application asked x) :
    replay eventId application asked now w = (.error (.engine x), w) := by
  have hbody : replayBody eventId application asked now w.begun = (.error (.engine x), w.begun) := by
    by_cases hevent : ∃ e, w.store.tables.IsEventOf eventId application e
    · obtain ⟨e, he⟩ := hevent
      rw [replayBody_of_event (w := w.begun) hw.idle.isOpen hw.indexed.lost hw.catalogued he,
        readable.event e he]
      dsimp only
      rw [bind_apply, replayTargets_refused (w := w.begun) hw.idle.isOpen hw.indexed.lost
        hw.catalogued he (readable.candidates ⟨e, he⟩) hx]
    · cases hx with
      | noEvent event =>
        exact replayBody_of_noEvent (w := w.begun) hw.idle.isOpen hw.indexed.lost hw.catalogued event
      | noSubscription event => exact absurd event hevent
      | disabled event => exact absurd event hevent
  rw [replay_of_error hw.idle hbody]
  change (_, { w with store := { w.store with inTransaction := false } }) = _
  rw [← hw.idle.inTransaction]
  rfl

/-- The transaction is ready for the targets of an event. -/
theorem isReadyFor_begun {e : Event} (he : w.store.tables.IsEventOf eventId application e)
    (draws : w.data.HasReplayDraws eventId w.store.tables.subscriptions.length)
    (lists : w.store.tables.ListsTargets e asked targets) :
    w.begun.IsReadyFor eventId application targets := by
  have hlength : targets.length ≤ w.store.tables.subscriptions.length :=
    (lists.distinct.of_map.subperm fun s hs => ((lists.mem_iff s).mp hs).stored).length_le
  have hreplays := w.ids.upcoming_sublist .replay hlength
  refine ⟨hw.idle.isOpen, rfl, hw.indexed.lost, fun s hs => ?_, lists.distinct,
    draws.toHasDraws.mono hlength, fun s _ draw hdraw => ?_⟩
  · have htarget := (lists.mem_iff s).mp hs
    exact ⟨⟨e, he.stored, he.eventId, he.application⟩,
      ⟨s, htarget.stored, rfl, htarget.application.trans he.application⟩⟩
  · exact draws.unused s.subscriptionId draw (hreplays.mem hdraw)

variable (now)

theorem replay_granted (draws : w.data.HasReplayDraws eventId w.store.tables.subscriptions.length)
    (readable : w.store.tables.CanReplay eventId application asked)
    (granted : ¬ ∃ x, w.store.tables.RefusesReplay eventId application asked x) :
    ∃ e targets attempts added, w.store.tables.IsEventOf eventId application e ∧
      (replay eventId application asked now w).1 = .ok attempts ∧
      (replay eventId application asked now w).2.store = { w.store with tables := { w.store.tables with
        attempts := w.store.tables.attempts ++ added } } ∧
      w.store.tables.Replays e asked now targets attempts added := by
  have hevent : ∃ e, w.store.tables.IsEventOf eventId application e := by
    by_contra hno
    exact granted ⟨_, .noEvent hno⟩
  obtain ⟨e, he⟩ := hevent
  obtain ⟨hstored, rfl, rfl⟩ := he
  have he : w.store.tables.IsEventOf e.eventId e.applicationId e := ⟨hstored, rfl, rfl⟩
  have henabled : ∀ id, asked = some id → ∃ s, w.store.tables.IsCandidate e.applicationId (some id) s ∧
      s.isEnabled = true := by
    rintro id rfl
    exact Tables.exists_candidate_of_granted ⟨e, he⟩ granted
  obtain ⟨targets, hchoice, lists⟩ := replayTargets_ok (w := w.begun) hw.idle.isOpen hw.indexed.lost
    hw.catalogued (readable.candidates ⟨e, he⟩) henabled
  obtain ⟨attempts, added, v, hrun, hstore, hopens, hadds⟩ := mapM_replayTo_ok now
    (isReadyFor_begun hw he draws lists) fun s hs => readable.attempts e he s ((lists.mem_iff s).mp hs)
  have hbody : replayBody e.eventId e.applicationId asked now w.begun = (.ok attempts, v) := by
    rw [replayBody_of_event (w := w.begun) hw.idle.isOpen hw.indexed.lost hw.catalogued he,
      readable.event e he]
    dsimp only
    rw [bind_apply, hchoice]
    exact hrun
  have hresponses : ∀ r ∈ added, r.responseId = none :=
    ((List.forall₂_and_left added _).mp (hadds.flip.imp fun r s hr => ⟨hr.responseId, hr⟩)).1
  have hkept : Tables.keepsReferences w.store.tables v.store.tables = true := by
    rw [hstore]
    exact Tables.keepsReferences_of_dangling_eq (Tables.dangling_append hresponses)
  obtain ⟨hanswer, hafter⟩ := replay_of_ok hw.idle hbody hkept
  refine ⟨e, targets, attempts, added, he, hanswer, ?_, lists, ?_, ?_⟩
  · rw [hafter, hstore, World.begun, ← hw.idle.inTransaction]
  · rw [hstore] at hopens
    exact hopens
  · simp only [Tables.decide_countOpen_eq_zero]
    exact hadds

theorem replay_error (draws : w.data.HasReplayDraws eventId w.store.tables.subscriptions.length)
    (unreadable : ¬ w.store.tables.CanReplay eventId application asked) :
    ∃ x, (replay eventId application asked now w).1 = .error (.record x) ∧
      (replay eventId application asked now w).2.store.tables = w.store.tables := by
  have hbody : ∃ x v, replayBody eventId application asked now w.begun = (.error (.record x), v) := by
    have hevent : ∃ e, w.store.tables.IsEventOf eventId application e := by
      by_contra hno
      exact unreadable ⟨fun e he => absurd ⟨e, he⟩ hno, fun he => absurd he hno,
        fun e he => absurd ⟨e, he⟩ hno⟩
    obtain ⟨e, hstored, rfl, rfl⟩ := hevent
    have he : w.store.tables.IsEventOf e.eventId e.applicationId e := ⟨hstored, rfl, rfl⟩
    rw [replayBody_of_event (w := w.begun) hw.idle.isOpen hw.indexed.lost hw.catalogued he]
    cases hcheck : e.check with
    | error x => exact ⟨x, _, rfl⟩
    | ok f =>
      obtain rfl := Event.eq_of_check hcheck
      dsimp only
      rw [bind_apply]
      by_cases hcandidates : ∀ s, w.store.tables.IsCandidate f.applicationId asked s →
          s.readRow = .ok s
      · obtain ⟨s, hs, hrow⟩ :=
          Tables.exists_unreadable hw.catalogued he hcheck hcandidates unreadable
        obtain ⟨targets, hchoice, lists⟩ := replayTargets_ok (w := w.begun)
          hw.idle.isOpen hw.indexed.lost hw.catalogued hcandidates fun id hid =>
            ⟨s, hid ▸ hs.toIsCandidate, hs.isEnabled⟩
        obtain ⟨x, v, hrun⟩ := mapM_replayTo_error now
          (isReadyFor_begun hw he draws lists) ⟨s, (lists.mem_iff s).mpr hs, hrow⟩
        exact ⟨x, v, by rw [hchoice]; exact hrun⟩
      · push Not at hcandidates
        obtain ⟨x, hx⟩ := replayTargets_error (w := w.begun) (e := f) hw.idle.isOpen
          hw.indexed.lost hw.catalogued hcandidates
        exact ⟨x, _, by rw [hx]⟩
  obtain ⟨x, v, hbody⟩ := hbody
  refine ⟨x, ?_, ?_⟩ <;> rw [replay_of_error hw.idle hbody]
  rfl

end

end Engine

/-- In every store that arises from requests, from changes of rows and from insertions of attempts,
with new identifiers to draw: if what is read for a replay can be read, the replay fails exactly if it
is refused, and then changes nothing. Else it gives an open attempt for each target, adds one for each
that had none, and changes nothing beside. If something cannot be read, the replay fails and leaves
the tables as they were. -/
theorem replay_adds_missing_attempts {onFile : Bool} {w : World}
    (h : (Store.create onFile).Strays w.store) (eventId application : Uuid) (asked : Option Uuid)
    (now : Int) (draws : w.data.HasReplayDraws eventId w.store.tables.subscriptions.length) :
    (w.store.tables.CanReplay eventId application asked →
      (∀ x, (Engine.replay eventId application asked now w).1 = .error x ↔
        ∃ refusal, x = .engine refusal ∧
          w.store.tables.RefusesReplay eventId application asked refusal) ∧
      ((∃ refusal, w.store.tables.RefusesReplay eventId application asked refusal) →
        (Engine.replay eventId application asked now w).2 = w) ∧
      ((¬ ∃ refusal, w.store.tables.RefusesReplay eventId application asked refusal) →
        ∃ e targets attempts added, w.store.tables.IsEventOf eventId application e ∧
          (Engine.replay eventId application asked now w).1 = .ok attempts ∧
          (Engine.replay eventId application asked now w).2.store = { w.store with
            tables := { w.store.tables with attempts := w.store.tables.attempts ++ added } } ∧
          w.store.tables.Replays e asked now targets attempts added)) ∧
    (¬ w.store.tables.CanReplay eventId application asked →
      ∃ x, (Engine.replay eventId application asked now w).1 = .error (.record x) ∧
        (Engine.replay eventId application asked now w).2.store.tables = w.store.tables) := by
  have hw : w.store.IsGrounded := h.isGrounded (Store.isGrounded_create onFile)
  refine ⟨fun readable => ?_, Engine.replay_error now hw draws⟩
  have hgranted := Engine.replay_granted now hw draws readable
  refine ⟨fun x => ⟨fun hx => ?_, ?_⟩, ?_, hgranted⟩
  · by_cases hrefused : ∃ refusal, w.store.tables.RefusesReplay eventId application asked refusal
    · obtain ⟨refusal, hrefusal⟩ := hrefused
      rw [Engine.replay_refused hw readable hrefusal] at hx
      exact ⟨refusal, (Except.error.inj hx).symm, hrefusal⟩
    · obtain ⟨_, _, attempts, _, _, hanswer, -⟩ := hgranted hrefused
      rw [hanswer] at hx
      cases hx
  · rintro ⟨refusal, rfl, hrefusal⟩
    rw [Engine.replay_refused hw readable hrefusal]
  · rintro ⟨refusal, hrefusal⟩
    rw [Engine.replay_refused hw readable hrefusal]

namespace Sample

/-- A second subscription to the same events. -/
def second : Subscription := { subscription with subscriptionId := .ofNat 8, createdAt := .utc 1 }

/-- The store with both subscriptions, of which only the first has an attempt. -/
def shared : World := world.runAll (begin ++ [.saveSubscription second])

theorem hasReplayDraws_shared : shared.data.HasReplayDraws event.eventId 2 := by
  refine ⟨⟨by decide +kernel, by decide +kernel⟩, fun s draw hdraw r hr hsame => ?_⟩
  obtain rfl := List.mem_singleton.mp hr
  have hdrawn : draw ≠ world.ids.next .replay := by
    rintro rfl
    revert hdraw
    decide +kernel
  exact hdrawn (DispatchKey.replay_injective hsame).2.2.symm

end Sample

/-- The event is replayed to both subscriptions, and the second one gets an attempt. -/
theorem second_target_gets_an_attempt :
    (Store.create true).Strays Sample.shared.store ∧
      Sample.shared.data.HasReplayDraws Sample.event.eventId
        Sample.shared.store.tables.subscriptions.length ∧
      Sample.shared.store.tables.CanReplay Sample.event.eventId Sample.application none ∧
      (¬ ∃ refusal, Sample.shared.store.tables.RefusesReplay Sample.event.eventId
        Sample.application none refusal) ∧
      ∃ targets attempts added,
        (Engine.replay Sample.event.eventId Sample.application none 5 Sample.shared).1 =
          .ok attempts ∧ attempts.length = 2 ∧ added.length = 1 ∧
        Sample.shared.store.tables.Replays Sample.event none 5 targets attempts added := by
  have hdated : ∀ o ∈ Sample.begin ++ [.saveSubscription Sample.second], o.IsDated := by
    intro o ho
    rcases List.mem_append.mp ho with ho | ho
    · exact Sample.isDated_begin o ho
    · rw [List.mem_singleton.mp ho]
      exact show ClockTime.inRange 1 by decide
  have hleads : (Store.create true).LeadsDated Sample.shared.store :=
    Store.leadsDated_runAll Sample.world hdated
  have h : (Store.create true).Strays Sample.shared.store := hleads.leads.strays
  have hread : Sample.shared.store.tables.IsLegible :=
    ⟨hleads.leads.isTended.intact, hleads.isReadable, by decide⟩
  have hcan := hread.canReplay Sample.event.eventId Sample.application none
  have hevent : Sample.shared.store.tables.IsEventOf Sample.event.eventId Sample.application
      Sample.event := ⟨List.mem_cons_self, rfl, rfl⟩
  have hgranted : ¬ ∃ refusal, Sample.shared.store.tables.RefusesReplay Sample.event.eventId
      Sample.application none refusal := by
    rintro ⟨_, ⟨hnone⟩⟩
    exact hnone ⟨Sample.event, hevent⟩
  obtain ⟨-, -, hreplays⟩ := (replay_adds_missing_attempts h Sample.event.eventId
    Sample.application none 5 Sample.hasReplayDraws_shared).1 hcan
  obtain ⟨e, targets, attempts, added, he, hanswer, hafter, hreplays⟩ := hreplays hgranted
  obtain rfl := he.unique hevent hleads.leads.isTended.intact.catalogued
  have htargets : targets.Perm [Sample.subscription, Sample.second] := by
    refine (List.perm_ext_iff_of_nodup hreplays.lists.distinct.of_map (by decide)).mpr fun s => ?_
    rw [hreplays.lists.mem_iff s]
    constructor
    · exact fun hs => hs.stored
    · intro hs
      rw [List.mem_cons, List.mem_singleton] at hs
      rcases hs with rfl | rfl
      · exact ⟨⟨List.mem_cons_self, rfl, rfl⟩, rfl, fun _ => ⟨by decide, by decide⟩⟩
      · exact ⟨⟨List.mem_cons_of_mem _ List.mem_cons_self, rfl, rfl⟩, rfl,
          fun _ => ⟨by decide, by decide⟩⟩
  refine ⟨h, Sample.hasReplayDraws_shared, hcan, hgranted, targets, attempts, added, hanswer, ?_, ?_,
    hreplays⟩
  · rw [← hreplays.opens.length_eq, htargets.length_eq]
    rfl
  · rw [← hreplays.adds.length_eq, (htargets.filter _).length_eq]
    decide +kernel

namespace Sample

/-- A subscription to other events, which a clock in the west dates in the last hour of the year
9999. -/
def westernStranger : Subscription :=
  { western with subscriptionId := .ofNat 9, eventTypes := ["user.deleted"] }

/-- The store with the subscription, its event, and the stranger. -/
def withStranger : World :=
  world.runAll [.saveSubscription subscription, .storeEvent event, .saveSubscription westernStranger]

end Sample

/-- The stranger is no target of the event, but keeps it from the subscription that is. -/
theorem western_stranger_blocks_replay :
    (Store.create true).Strays Sample.withStranger.store ∧
      Sample.withStranger.data.HasReplayDraws Sample.event.eventId
        Sample.withStranger.store.tables.subscriptions.length ∧
      Sample.withStranger.store.tables.IsTarget Sample.event none Sample.subscription ∧
      (¬ ∃ refusal, Sample.withStranger.store.tables.RefusesReplay Sample.event.eventId
        Sample.application none refusal) ∧
      ∃ x, (Engine.replay Sample.event.eventId Sample.application none 0 Sample.withStranger).1 =
        .error (.record x) := by
  have h : (Store.create true).Strays Sample.withStranger.store :=
    (Store.leads_runAll Sample.world _).strays
  have draws : Sample.withStranger.data.HasReplayDraws Sample.event.eventId
      Sample.withStranger.store.tables.subscriptions.length :=
    ⟨⟨by decide +kernel, fun _ _ _ hr => absurd hr List.not_mem_nil⟩,
      fun _ _ _ _ hr => absurd hr List.not_mem_nil⟩
  have hevent : Sample.withStranger.store.tables.IsEventOf Sample.event.eventId Sample.application
      Sample.event := ⟨List.mem_cons_self, rfl, rfl⟩
  refine ⟨h, draws, ⟨⟨List.mem_cons_self, rfl, rfl⟩, rfl, fun _ => ⟨by decide, by decide⟩⟩, ?_, ?_⟩
  · rintro ⟨_, ⟨hnone⟩⟩
    exact hnone ⟨Sample.event, hevent⟩
  · have hunreadable : ¬ Sample.withStranger.store.tables.CanReplay Sample.event.eventId
        Sample.application none := by
      intro hcan
      have hread := hcan.candidates ⟨_, hevent⟩ Sample.westernStranger.toRow
        ⟨List.mem_cons_of_mem _ List.mem_cons_self, rfl, rfl⟩
      revert hread
      decide
    obtain ⟨x, hx, -⟩ := Engine.replay_error 0 (h.isGrounded (Store.isGrounded_create true)) draws
      hunreadable
    exact ⟨x, hx⟩

end WebhookDelivery
