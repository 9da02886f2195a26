import WebhookDelivery.Proofs.Routing
import WebhookDelivery.Proofs.Tables

/-!
# WebhookDelivery.Proofs.Run

Runs of the engine: its operations on one store in any order. A claim may be ended late, more than
once, or not at all, and between two operations the clock, the supply of identifiers and all else
outside the store may change at will.

* `Operation`, `Call`, `Run`: an operation, a call of it in a world, and calls in turn.
* `Call.effect`, `Call.changes`: what a call does to the tables; one that fails leaves them as they
  were.
* `Run.invariant`: what all changes keep holds after a run.
-/

namespace WebhookDelivery

/-! ## What the operations do to the tables -/

namespace Data

variable {ends : Ending → Prop}

theorem changes_foldl (application event : Uuid) {f : Data → Subscription → Data}
    (hf : ∀ d s, d.tables.Places application event s.subscriptionId →
      Tables.Changes ends d.tables (f d s).tables ∧
      (f d s).tables.events = d.tables.events ∧
      (f d s).tables.subscriptions = d.tables.subscriptions)
    (targets : List Subscription) (d : Data)
    (ht : ∀ s ∈ targets, d.tables.Places application event s.subscriptionId) :
    Tables.Changes ends d.tables (targets.foldl f d).tables := by
  induction targets generalizing d with
  | nil => exact .refl
  | cons s rest ih =>
    obtain ⟨hc, he, hs⟩ := hf d s (ht s List.mem_cons_self)
    have hr : ∀ x ∈ rest, (f d s).tables.Places application event x.subscriptionId :=
      fun x hx => (ht x (List.mem_cons_of_mem _ hx)).congr he hs
    exact hc.trans (ih (f d s) hr)

/-- An attempt that is offered leaves events and subscriptions alone. -/
theorem changes_offer (t : Tables) (r : AttemptRow) (fresh : r.IsFresh)
    (places : t.Places r.applicationId r.eventId r.subscriptionId) :
    Tables.Changes ends t (t.offer r) ∧ (t.offer r).events = t.events ∧
      (t.offer r).subscriptions = t.subscriptions := by
  refine ⟨.single (.offer r fresh places), ?_, ?_⟩ <;> unfold Tables.offer <;> split <;> rfl

theorem mem_subscriptionsOf {t : Tables} {application : Uuid} {enabledOnly : Bool}
    {s : Subscription} (h : s ∈ t.subscriptionsOf application enabledOnly) :
    s ∈ t.subscriptions ∧ s.applicationId = application := by
  unfold Tables.subscriptionsOf at h
  obtain ⟨hs, ha⟩ := List.mem_filter.mp ((List.mergeSort_perm _ _).mem_iff.mp h)
  simp only [Bool.and_eq_true, beq_iff_eq] at ha
  exact ⟨hs, ha.1⟩

theorem mem_of_event? {t : Tables} {id : Uuid} {e : Event} (h : t.event? id = some e) :
    e ∈ t.events ∧ e.eventId = id :=
  ⟨List.mem_of_find?_eq_some h, by simpa using List.find?_some h⟩

theorem mem_receivers {d : Data} {e : Event} {s : Subscription} (h : s ∈ d.receivers e) :
    s ∈ d.tables.subscriptions ∧ s.applicationId = e.applicationId :=
  mem_subscriptionsOf (List.mem_of_mem_filter h)

theorem changes_fanOut {d : Data} {e : Event} (he : e ∈ d.tables.events) (now : Int) :
    Tables.Changes ends d.tables (d.fanOut e now).tables := by
  have hf : Tables.Changes ends d.tables ((d.receivers e).foldl (dispatchTo e now) d).tables := by
    refine changes_foldl e.applicationId e.eventId ?_ _ d
      fun s hs => ⟨⟨e, he, rfl, rfl⟩, ⟨s, (mem_receivers hs).1, rfl, (mem_receivers hs).2⟩⟩
    intro d s hp
    exact changes_offer d.tables _ (AttemptRow.isFresh_new ..) hp
  exact hf.tail (.edit (.register (Tables.registers_markDispatched _ _ _)))

theorem changes_ingest (d : Data) (e : Event) (now : Int) :
    Tables.Changes ends d.tables (d.ingest e now).tables := by
  unfold ingest
  cases hs : d.tables.event? e.eventId with
  | none =>
    have hi := Tables.registers_insertEvent d.tables e
    simp only [Tables.insertEvent, hs, Option.isSome_none, Bool.false_eq_true, if_false] at hi
    have hm : e ∈ d.tables.events ++ [e] := List.mem_append_right _ List.mem_cons_self
    exact .head (.edit (.register hi)) (changes_fanOut
      (d := { d with tables := { d.tables with events := d.tables.events ++ [e] } }) hm now)
  | some stored =>
    dsimp only
    split
    · exact .refl
    · exact changes_fanOut (mem_of_event? hs).1 now

theorem mem_of_inScope {α : Type} {application : Uuid} {owner : α → Uuid} {row : Option α} {a : α}
    (h : Engine.inScope application owner row = some a) : row = some a ∧ owner a = application := by
  unfold Engine.inScope at h
  rw [Option.filter_eq_some_iff, Option.all_some, beq_iff_eq] at h
  exact ⟨h.1, h.2.symm⟩

theorem mem_replayTargets {d : Data} {e : Event} {application : Uuid} {subscription : Option Uuid}
    {targets : List Subscription} (h : d.replayTargets? e application subscription = some targets)
    {s : Subscription} (hs : s ∈ targets) :
    s ∈ d.tables.subscriptions ∧ s.applicationId = application := by
  unfold replayTargets? at h
  cases subscription with
  | none =>
    cases h
    exact mem_subscriptionsOf (List.mem_of_mem_filter hs)
  | some id =>
    simp only [Option.map_eq_some_iff, Option.filter_eq_some_iff] at h
    obtain ⟨x, ⟨hx, -⟩, rfl⟩ := h
    rw [List.mem_singleton] at hs
    subst hs
    obtain ⟨hf, ha⟩ := mem_of_inScope hx
    exact ⟨List.mem_of_find?_eq_some hf, ha⟩

theorem changes_replayAll {d : Data} {e : Event} {eventId application : Uuid}
    {subscription : Option Uuid} {targets : List Subscription}
    (he : Engine.inScope application Event.applicationId (d.tables.event? eventId) = some e)
    (ht : d.replayTargets? e application subscription = some targets) (now : Int) :
    Tables.Changes ends d.tables (d.replayAll eventId application now targets).tables := by
  obtain ⟨hf, ha⟩ := mem_of_inScope he
  obtain ⟨hm, hi⟩ := mem_of_event? hf
  refine changes_foldl application eventId ?_ targets d
    fun s hs => ⟨⟨e, hm, hi, ha⟩, ⟨s, (mem_replayTargets ht hs).1, rfl, (mem_replayTargets ht hs).2⟩⟩
  intro d s hp
  unfold replayTo
  split
  · exact ⟨.refl, rfl, rfl⟩
  · exact changes_offer d.tables _ (AttemptRow.isFresh_new ..) hp

end Data

/-! ## Operations -/

/-- An operation of the engine that can be run as a transaction of its own. -/
inductive Operation where
  | storeEvent (e : Event)
  | ingest (e : Event) (now : Int)
  | replay (eventId application : Uuid) (subscription : Option Uuid) (now : Int)
  | claim (c : Claimant) (now : Int)
  | findStale (before limit : Int)
  | finalize (claimed : Attempt) (r : Response) (now : Int) (retryAt : Option Int)
  | saveSubscription (s : Subscription)
  | setEnabled (id : Uuid) (enabled : Bool)

/-- What an operation answers: whether it had an effect, the attempts it created or found, or the
claims it handed out. -/
inductive Answer where
  | done
  | flag (effective : Bool)
  | attempts (attempts : List Attempt)
  | claims (claims : List Claim)

namespace Operation

def run : Operation → Engine Answer
  | storeEvent e => .flag <$> Engine.insertEvent e
  | ingest e now => .attempts <$> Engine.ingest e now
  | replay eventId application subscription now =>
    .attempts <$> Engine.replay eventId application subscription now
  | claim c now => (fun claim => .claims claim.toList) <$> Engine.claimNext c now
  | findStale before limit => .claims <$> Engine.findStale before limit
  | finalize claimed r now retryAt => .flag <$> Engine.finalize claimed r now retryAt
  | saveSubscription s => (fun _ => .done) <$> Engine.saveSubscription s
  | setEnabled id enabled => .flag <$> Engine.setSubscriptionEnabled id enabled

/-- The claim that an operation ends when it gives an answer: one whose outcome was recorded. -/
def Ends : Operation → Answer → Ending → Prop
  | finalize claimed r now retryAt, .flag true, e =>
    claimed.token? = some e.token ∧ e.outcome = Engine.outcomeOf r now retryAt ∧ e.response = r
  | _, _, _ => False

/-- The operation may create attempts. -/
def creates : Operation → Bool
  | ingest _ _ | replay _ _ _ _ => true
  | _ => false

/-- The operation leaves attempts and responses alone. -/
def isCatalogue : Operation → Bool
  | storeEvent _ | findStale _ _ | saveSubscription _ | setEnabled _ _ => true
  | _ => false

theorem meets_registers {o : Operation} (ho : o.isCatalogue) :
    o.run.Meets fun d _ d' => d.tables.Registers d'.tables := by
  cases o with
  | storeEvent e =>
    refine ((Engine.meets_insertEvent e).map _).mono ?_
    rintro d _ d' ⟨b, ⟨ht, -⟩, rfl⟩
    have hr := Tables.registers_insertEvent d.tables e
    rw [← ht] at hr
    exact hr
  | findStale before limit =>
    refine ((Engine.meets_findStale before limit).map _).mono ?_
    rintro d _ d' ⟨claims, ⟨-, rfl⟩, rfl⟩
    exact .refl _
  | saveSubscription s =>
    refine ((Engine.meets_saveSubscription s).map _).mono ?_
    rintro d _ d' ⟨_, rfl, rfl⟩
    exact Tables.registers_saveSubscription d.tables s
  | setEnabled id enabled =>
    refine ((Engine.meets_setSubscriptionEnabled id enabled).map _).mono ?_
    rintro d _ d' ⟨b, ⟨ht, -⟩, rfl⟩
    have hr := Tables.registers_setEnabled d.tables id enabled
    rw [← ht] at hr
    exact hr
  | _ => cases ho

/-- An operation that creates no attempts is an edit. -/
theorem meets_edit {o : Operation} (ho : o.creates = false) :
    o.run.Meets fun d x d' => Tables.Edit (o.Ends x) d.tables d'.tables := by
  cases o with
  | ingest e now => cases ho
  | replay eventId application subscription now => cases ho
  | claim c now =>
    refine ((Engine.meets_claimNext c now).map _).mono ?_
    rintro d _ d' ⟨x, ⟨rfl, -⟩, rfl⟩
    exact .claim c now
  | finalize claimed r now retryAt =>
    refine ((Engine.meets_finalize claimed r now retryAt).map _).mono ?_
    rintro d _ d' ⟨held, ⟨pickedAt, hp, hh, h⟩, rfl⟩
    cases held with
    | false =>
      rw [if_neg Bool.false_ne_true] at h
      rw [h]
      exact .register (.refl _)
    | true =>
      have hk : claimed.token? = some ⟨claimed.attemptId, pickedAt.micros, claimed.workerName⟩ := by
        rw [Attempt.token?, hp]
        rfl
      exact .finish ⟨_, Engine.outcomeOf r now retryAt, r⟩ ⟨hk, rfl, rfl⟩ hh.symm h.1
  | _ => exact (meets_registers rfl).mono fun _ _ _ h => .register h

/-- What follows the transaction of an operation cannot fail. -/
theorem reverts_run (o : Operation) : o.run.Reverts := by
  cases o with
  | storeEvent e => exact (Engine.Reverts.atomically _).map _
  | ingest e now =>
    refine ((Engine.Reverts.atomically _).bind fun done => ?_).map _
    cases done with
    | none => exact Engine.succeeds_pure _
    | some p => exact (Engine.succeeds_log _ _ _ _).bind fun _ => Engine.succeeds_pure _
  | replay eventId application subscription now =>
    exact ((Engine.Reverts.atomically _).bind fun attempts =>
      (Engine.succeeds_log _ _ _ _).bind fun _ => Engine.succeeds_pure _).map _
  | claim c now => exact (Engine.Reverts.atomically _).map _
  | findStale before limit => exact (Engine.Reverts.atomically _).map _
  | finalize claimed r now retryAt =>
    refine Engine.Reverts.map _ ?_
    unfold Engine.finalize
    split
    · exact .throw _
    · exact .atomically _
  | saveSubscription s => exact (Engine.Reverts.atomically _).map _
  | setEnabled id enabled => exact (Engine.Reverts.atomically _).map _

end Operation

/-! ## Runs -/

/-- An operation that is run in a world. -/
structure Call where
  operation : Operation
  world : World

namespace Call

def answer (x : Call) : Except OperationError Answer := (x.operation.run x.world).1

def before (x : Call) : Store := x.world.store

def after (x : Call) : Store := (x.operation.run x.world).2.store

def Ends (x : Call) (e : Ending) : Prop := ∃ a, x.answer = .ok a ∧ x.operation.Ends a e

end Call

/-- The connection is open and no transaction is under way. -/
structure Store.IsIdle (s : Store) : Prop where
  isOpen : s.isOpen = true
  inTransaction : s.inTransaction = false

theorem Store.isIdle_create (onFile : Bool) : (create onFile).IsIdle := ⟨rfl, rfl⟩

namespace Call

theorem sameConnection (x : Call) : x.before.SameConnection x.after := by
  cases hc : x.operation.creates with
  | false => exact (Operation.meets_edit hc x.world).1
  | true =>
    unfold after
    cases ho : x.operation with
    | ingest e now => exact (((Engine.meets_ingest e now).map _) x.world).1
    | replay eventId application subscription now =>
      exact (((Engine.meets_replay eventId application subscription now).map _) x.world).1
    | _ =>
      rw [ho] at hc
      cases hc

theorem isIdle_after {x : Call} (h : x.before.IsIdle) : x.after.IsIdle := by
  have hc := x.sameConnection
  exact ⟨hc.isOpen.trans h.isOpen, hc.inTransaction.trans h.inTransaction⟩

theorem tables_of_error {x : Call} (h : x.before.IsIdle) {e : OperationError}
    (he : x.answer = .error e) : x.after.tables = x.before.tables :=
  x.operation.reverts_run x.world h.inTransaction e he

theorem tables_of_ingest {x : Call} {e : Event} {now : Int} {a : Answer}
    (ho : x.operation = .ingest e now) (ha : x.answer = .ok a) :
    x.after.tables = (x.world.data.ingest e now).tables := by
  unfold answer at ha
  unfold after
  rw [ho] at ha ⊢
  obtain ⟨created, ⟨hd, -⟩, -⟩ := (((Engine.meets_ingest e now).map _) x.world).2 a ha
  exact congrArg Data.tables hd

theorem tables_of_replay {x : Call} {eventId application : Uuid} {subscription : Option Uuid}
    {now : Int} {a : Answer} (ho : x.operation = .replay eventId application subscription now)
    (ha : x.answer = .ok a) : ∃ e targets,
      Engine.inScope application Event.applicationId (x.before.tables.event? eventId) = some e ∧
      x.world.data.replayTargets? e application subscription = some targets ∧
      x.after.tables = (x.world.data.replayAll eventId application now targets).tables := by
  unfold answer at ha
  unfold after
  rw [ho] at ha ⊢
  obtain ⟨attempts, ⟨e, targets, he, ht, hd⟩, -⟩ :=
    (((Engine.meets_replay eventId application subscription now).map _) x.world).2 a ha
  exact ⟨e, targets, he, ht, congrArg Data.tables hd⟩

/-- What a call does: an edit, or else a dispatch or a replay. -/
theorem effect {x : Call} (h : x.before.IsIdle) :
    Tables.Edit x.Ends x.before.tables x.after.tables ∨
    (∃ e now a, x.operation = .ingest e now ∧ x.answer = .ok a ∧
      x.after.tables = (x.world.data.ingest e now).tables) ∨
    ∃ eventId application subscription now e targets,
      x.operation = .replay eventId application subscription now ∧
      Engine.inScope application Event.applicationId (x.before.tables.event? eventId) = some e ∧
      x.world.data.replayTargets? e application subscription = some targets ∧
      x.after.tables = (x.world.data.replayAll eventId application now targets).tables := by
  cases ha : x.answer with
  | error e =>
    rw [tables_of_error h ha]
    exact .inl (.register (.refl _))
  | ok a =>
    cases hc : x.operation.creates with
    | false =>
      have he : Tables.Edit (x.operation.Ends a) x.before.tables x.after.tables :=
        (Operation.meets_edit hc x.world).2 a ha
      exact .inl (he.mono fun e he => ⟨a, ha, he⟩)
    | true =>
      cases ho : x.operation with
      | ingest e now => exact .inr (.inl ⟨e, now, a, rfl, rfl, tables_of_ingest ho ha⟩)
      | replay eventId application subscription now =>
        obtain ⟨e, targets, he, ht, hd⟩ := tables_of_replay ho ha
        exact .inr (.inr ⟨eventId, application, subscription, now, e, targets, rfl, he, ht, hd⟩)
      | _ =>
        rw [ho] at hc
        cases hc

theorem changes {x : Call} (h : x.before.IsIdle) :
    Tables.Changes x.Ends x.before.tables x.after.tables := by
  rcases effect h with he | ⟨e, now, -, -, -, ht⟩ | ⟨_, _, _, now, e, targets, -, he, ht, hr⟩
  · exact .single (.edit he)
  · rw [ht]
    exact x.world.data.changes_ingest e now
  · rw [hr]
    exact Data.changes_replayAll he ht now

theorem sound_after {x : Call} (h : x.before.IsIdle) (hs : x.before.tables.Sound) :
    x.after.tables.Sound :=
  (changes h).invariant hs fun _ _ hc => hc.sound

/-- A claim that a call ends is held before it, and its outcome is recorded. -/
theorem Ends.finish {x : Call} {e : Ending} (h : x.Ends e) :
    x.before.tables.attempts.any e.token.holds ∧
      x.before.tables.finish? e = .ok x.after.tables := by
  obtain ⟨a, ha, he⟩ := h
  unfold Operation.Ends at he
  split at he
  · rename_i claimed r now retryAt ho
    obtain ⟨hk, hout, hr⟩ := he
    have hm := ((Engine.meets_finalize claimed r now retryAt).map Answer.flag) x.world
    unfold answer at ha
    rw [ho] at ha
    obtain ⟨held, ⟨pickedAt, hp, hh, hf⟩, hb⟩ := hm.2 _ ha
    cases hb
    rw [Attempt.token?, hp, Option.map_some, Option.some.injEq] at hk
    unfold Tables.finish? after
    rw [ho, ← hk, hout, hr]
    exact ⟨hh.symm, hf.1⟩
  · exact he.elim

end Call

/-- Calls in turn, each on the store that the one before it left. -/
inductive Run : Store → List Call → Store → Prop
  | nil (s : Store) : Run s [] s
  | cons {x : Call} {calls : List Call} {s : Store} (h : Run x.after calls s) :
      Run x.before (x :: calls) s

namespace Run

variable {s t u : Store} {calls more : List Call}

theorem append (h : Run s calls t) (h' : Run t more u) : Run s (calls ++ more) u := by
  induction h with
  | nil => exact h'
  | cons _ ih => exact .cons (ih h')

theorem split (h : Run s (calls ++ more) u) : ∃ t, Run s calls t ∧ Run t more u := by
  induction calls generalizing s with
  | nil => exact ⟨s, .nil s, h⟩
  | cons x rest ih =>
    cases h with
    | cons h =>
      obtain ⟨t, hx, hm⟩ := ih h
      exact ⟨t, .cons hx, hm⟩

theorem around {x : Call} (h : Run s (calls ++ x :: more) u) :
    Run s calls x.before ∧ Run x.after more u := by
  obtain ⟨t, hb, ha⟩ := h.split
  cases ha with
  | cons ha => exact ⟨hb, ha⟩

/-- What every call keeps holds before and after every call. -/
theorem preserves {I : Store → Prop} (h : Run s calls t) (hs : I s)
    (hc : ∀ x ∈ calls, I x.before → I x.after) : I t ∧ ∀ x ∈ calls, I x.before := by
  induction h with
  | nil => exact ⟨hs, fun _ hx => absurd hx List.not_mem_nil⟩
  | cons _ ih =>
    obtain ⟨ht, hb⟩ := ih (hc _ List.mem_cons_self hs) fun y hy => hc y (List.mem_cons_of_mem _ hy)
    exact ⟨ht, List.forall_mem_cons.mpr ⟨hs, hb⟩⟩

theorem isIdle (h : Run s calls t) (hs : s.IsIdle) : t.IsIdle :=
  (h.preserves hs fun _ _ => Call.isIdle_after).1

/-- What the changes of all calls keep holds after the run. -/
theorem invariant {I : Tables → Prop} (h : Run s calls t) (hs : s.IsIdle) (hI : I s.tables)
    (hc : ∀ x ∈ calls, ∀ a b, Tables.Change x.Ends a b → I a → I b) : I t.tables := by
  induction h with
  | nil => exact hI
  | @cons x calls _ _ ih =>
    have hx : I x.after.tables :=
      (Call.changes hs).invariant hI (hc x List.mem_cons_self)
    exact ih (Call.isIdle_after hs) hx fun y hy => hc y (List.mem_cons_of_mem _ hy)

theorem sound (h : Run s calls t) (hs : s.IsIdle) (ht : s.tables.Sound) : t.tables.Sound :=
  h.invariant hs ht fun _ _ _ _ hc => hc.sound

end Run

/-- The calls of a client that runs operations in turn and is never interrupted. -/
def Call.inTurn (w : World) : List Operation → List Call
  | [] => []
  | o :: rest => ⟨o, w⟩ :: inTurn (o.run w).2 rest

/-- The world after operations were run in turn. -/
def World.runAll (w : World) (operations : List Operation) : World :=
  operations.foldl (fun w o => (o.run w).2) w

theorem run_inTurn (w : World) (operations : List Operation) :
    Run w.store (Call.inTurn w operations) (w.runAll operations).store := by
  induction operations generalizing w with
  | nil => exact .nil _
  | cons o rest ih => exact .cons (x := ⟨o, w⟩) (ih (o.run w).2)

theorem operation_mem_of_mem_inTurn {w : World} {operations : List Operation} {x : Call}
    (h : x ∈ Call.inTurn w operations) : x.operation ∈ operations := by
  induction operations generalizing w with
  | nil => cases h
  | cons o rest ih =>
    rcases List.mem_cons.mp h with rfl | h
    · exact List.mem_cons_self
    · exact List.mem_cons_of_mem _ (ih h)

/-! ## A small world

One application with one subscription, an event that it accepts, and a worker. -/

namespace Sample

def world : World where
  clock := 0
  elapsed := 0
  ids := ⟨fun kind n => .ofNat (1000 * kind.ctorIdx + n), 0, 0, 0, 0⟩
  draws := ⟨[], 0⟩
  network := ⟨.asciiOnly, fun _ _ => .ok [], [], [], []⟩
  log := .empty
  store := .create true

def application : Uuid := .ofNat 1

def subscription : Subscription where
  subscriptionId := .ofNat 2
  applicationId := application
  isEnabled := true
  eventTypes := ["user.created"]
  labelKey := "env"
  labelValue := "prod"
  target := ⟨"POST", "https://hooks.example.com/webhook", []⟩
  secret := "whsec_test"
  dedicatedWorkers := []
  retrySchedule := none
  description := none
  createdAt := .utc 0

def event : Event where
  eventId := .ofNat 3
  applicationId := application
  eventType := "user.created"
  payload := []
  contentType := Event.defaultContentType
  labels := [("env", "prod")]
  occurredAt := 0
  receivedAt := 0
  dispatchedAt := none

def claimant : Claimant := ⟨"deliverer", "1.0", false⟩

/-- Stores the event and creates an attempt to deliver it. -/
def begin : List Operation :=
  [.saveSubscription subscription, .storeEvent event,
    .replay event.eventId application (some subscription.subscriptionId) 0]

/-- The first attempt as it is handed out when it is claimed at a time. -/
def claimed (time : Int) : Attempt :=
  { Attempt.new (world.ids.next .attempt) application event.eventId subscription.subscriptionId 0 0
    with
    pickedAt := some (.utc time)
    workerName := some claimant.name
    workerVersion := some claimant.version }

def response (id : Nat) (error : Option FailureKind) : Response where
  responseId := .ofNat id
  attemptId := world.ids.next .attempt
  applicationId := application
  error := error
  httpCode := none
  headers := none
  body := none
  elapsedMs := 0
  createdAt := .utc 0

end Sample
end WebhookDelivery
