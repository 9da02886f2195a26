import WebhookDelivery.Proofs.Columns
import WebhookDelivery.Proofs.DeliveredContent

/-!
# WebhookDelivery.Proofs.AcceptedRows

A row is not only found but validated when it is read: its documents are parsed and its record is
built as if it were new. Records that obey the rules of their kinds leave rows whose records do.

* `Tables.IsAccepted`: the records of all rows obey the rules. `Operation.meets_isAccepted` says that
  operations with such records keep it so.
* `Client.accepts_execute`: so do the responses of executions.
* `Store.LeadsAccepted`: dated requests with such records lead from a store to another.
* `Tables.IsAccepted.read_columns`: every row is read back from its columns then.
* `stored_rows_can_be_read`: the result about all stores to which such requests lead.
-/

namespace WebhookDelivery

/-! ## Records -/

/-- The record of an event row is not changed by the mark that it gets. -/
theorem Event.IsAccepted.marked {e : Event} (h : e.IsAccepted) (time : Option Int) :
    Event.IsAccepted { e with dispatchedAt := time } := { h with }

/-- The row of a subscription that obeys the rules. -/
structure Subscription.IsAcceptedRow (s : Subscription) : Prop where
  accepted : s.IsAccepted
  universal : .utc s.createdAt.micros = s.createdAt

/-- The row of a response that obeys the rules and has received texts only. -/
structure Response.IsAcceptedRow (r : Response) : Prop where
  accepted : r.IsAccepted
  texts : r.HasTextHeaders
  universal : .utc r.createdAt.micros = r.createdAt

theorem Subscription.IsAccepted.toRow {s : Subscription} (h : s.IsAccepted) :
    s.toRow.IsAcceptedRow where
  accepted := { h with }
  universal := by rw [Subscription.toRow, ClockTime.micros_utc]

theorem Subscription.IsAcceptedRow.toRow_eq {s : Subscription} (h : s.IsAcceptedRow) :
    s.toRow = s := by
  rw [Subscription.toRow, h.universal]

theorem Response.IsAccepted.toRow {r : Response} (h : r.IsAccepted) (texts : r.HasTextHeaders) :
    r.toRow.IsAcceptedRow where
  accepted := { h with }
  texts := texts
  universal := by rw [Response.toRow, ClockTime.micros_utc]

theorem Response.IsAcceptedRow.toRow_eq {r : Response} (h : r.IsAcceptedRow) : r.toRow = r := by
  rw [Response.toRow, h.universal]

/-! ## Rows -/

namespace Tables

/-- The records of all rows obey the rules of their kinds. -/
structure IsAccepted (t : Tables) : Prop where
  events : ∀ e ∈ t.events, e.IsAccepted
  subscriptions : ∀ s ∈ t.subscriptions, s.IsAcceptedRow
  responses : ∀ r ∈ t.responses, r.IsAcceptedRow

theorem isAccepted_empty : empty.IsAccepted := by
  constructor <;> exact fun _ h => absurd h List.not_mem_nil

namespace IsAccepted

variable {t t' : Tables}

theorem congr (h : t.IsAccepted) (hframe : t'.events = t.events ∧
    t'.subscriptions = t.subscriptions ∧ t'.responses = t.responses) : t'.IsAccepted := by
  obtain ⟨hevents, hsubscriptions, hresponses⟩ := hframe
  exact ⟨hevents ▸ h.events, hsubscriptions ▸ h.subscriptions, hresponses ▸ h.responses⟩

theorem insertEvent (h : t.IsAccepted) {e : Event} (he : e.IsAccepted) :
    (t.insertEvent e).2.IsAccepted := by
  unfold Tables.insertEvent
  split
  · exact h
  · refine { h with events := fun x hx => ?_ }
    rcases List.mem_append.mp hx with hx | hx
    · exact h.events x hx
    · rwa [List.mem_singleton.mp hx]

theorem markDispatched (h : t.IsAccepted) (id : Uuid) (time : Int) :
    (t.markDispatched id time).2.IsAccepted := by
  refine { h with events := fun x hx => ?_ }
  obtain ⟨e, he, rfl⟩ := mem_updateRows.mp hx
  split
  · exact (h.events e he).marked _
  · exact h.events e he

theorem saveSubscription (h : t.IsAccepted) {s : Subscription} (hs : s.IsAccepted) :
    (t.saveSubscription s).IsAccepted := by
  unfold Tables.saveSubscription
  dsimp only
  split
  · refine { h with subscriptions := fun x hx => ?_ }
    obtain ⟨old, hold, rfl⟩ := mem_updateRows.mp hx
    split
    · exact ⟨{ hs with }, (h.subscriptions old hold).universal⟩
    · exact h.subscriptions old hold
  · refine { h with subscriptions := fun x hx => ?_ }
    rcases List.mem_append.mp hx with hx | hx
    · exact h.subscriptions x hx
    · rw [List.mem_singleton.mp hx]
      exact hs.toRow

theorem setEnabled (h : t.IsAccepted) (id : Uuid) (enabled : Bool) :
    (t.setEnabled id enabled).2.IsAccepted := by
  refine { h with subscriptions := fun x hx => ?_ }
  obtain ⟨s, hs, rfl⟩ := mem_updateRows.mp hx
  obtain ⟨accepted, universal⟩ := h.subscriptions s hs
  split
  · exact ⟨{ accepted with }, universal⟩
  · exact ⟨accepted, universal⟩

theorem finish (h : t.IsAccepted) (hs : t.Indexed) {e : Ending}
    (hr : e.response.IsAccepted) (texts : e.response.HasTextHeaders)
    (hf : t.finish? e = .ok t') : t'.IsAccepted := by
  obtain rfl := finish?_eq_ok hs.referencesUnchecked hf
  refine { h with responses := fun x hx => ?_ }
  rcases List.mem_append.mp hx with hx | hx
  · exact h.responses x hx
  · rw [List.mem_singleton.mp hx]
    exact hr.toRow texts

/-- Every row is read back from its columns as its record. -/
theorem read_columns (h : t.IsAccepted) (hr : t.IsReadable) :
    t.columns.events.mapM EventColumns.read = .ok t.events ∧
      t.columns.subscriptions.mapM SubscriptionColumns.read = .ok t.subscriptions ∧
      t.columns.responses.mapM ResponseColumns.read = .ok t.responses := by
  have hmap {α β ε : Type} (write : α → β) (read : β → Except ε α) (rows : List α)
      (hback : ∀ x ∈ rows, read (write x) = .ok x) : (rows.map write).mapM read = .ok rows := by
    have hread : rows.mapM (read ∘ write) = .ok (rows.map id) := mapM_eq_ok hback
    rwa [List.map_id, ← List.mapM_map] at hread
  refine ⟨hmap _ _ _ fun e he => ?_, hmap _ _ _ fun s hs => ?_, hmap _ _ _ fun r hm => ?_⟩
  · rw [Event.read_columns_eq_check (h.events e he), hr.events e he]
    rfl
  · have hrow := h.subscriptions s hs
    rw [Subscription.read_columns_eq_readRow hrow.accepted, hrow.toRow_eq,
      Subscription.readRow_eq_ok (hr.subscriptions s hs)]
    rfl
  · have hrow := h.responses r hm
    rw [Response.read_columns_eq_readRow hrow.accepted hrow.texts, hrow.toRow_eq,
      Response.readRow_eq_ok (hr.responses r hm)]
    rfl

end IsAccepted
end Tables

/-! ## Dispatch and replay -/

namespace Data

variable {d : Data}

theorem isAccepted_ingest (h : d.tables.IsAccepted) {e : Event} (he : e.IsAccepted) (now : Int) :
    (d.ingest e now).tables.IsAccepted := by
  rcases d.ingest_cases e now with hd | hd
  · rwa [hd]
  · have hoffered : (((d.insertEvent e).receivers (d.asStored e)).foldl
        (dispatchTo (d.asStored e) now) (d.insertEvent e)).tables.IsAccepted :=
      List.foldlRecOn (motive := fun d' : Data => d'.tables.IsAccepted) _ _ (h.insertEvent he)
        fun d' h' _ _ => h'.congr (d'.tables.offer_frame _)
    rw [hd]
    exact hoffered.markDispatched _ _

theorem isAccepted_replayAll (h : d.tables.IsAccepted) (eventId application : Uuid) (now : Int)
    (targets : List Subscription) :
    (d.replayAll eventId application now targets).tables.IsAccepted := by
  refine List.foldlRecOn (motive := fun d' : Data => d'.tables.IsAccepted) _ _ h
    fun d' h' s _ => ?_
  unfold replayTo
  split
  · exact h'
  · exact h'.congr (d'.tables.offer_frame _)

end Data

/-! ## Operations -/

namespace Operation

/-- The records that the operation is called with obey the rules of their kinds. -/
def IsAccepted : Operation → Prop
  | storeEvent e | ingest e _ => e.IsAccepted
  | finalize _ r _ _ => r.IsAccepted ∧ r.HasTextHeaders
  | saveSubscription s => s.IsAccepted
  | _ => True

theorem meets_isAccepted {o : Operation} (ho : o.IsAccepted) :
    o.run.Meets fun d _ d' => d.tables.Indexed → d.tables.IsAccepted → d'.tables.IsAccepted := by
  cases o with
  | storeEvent e =>
    refine ((Engine.meets_insertEvent e).map _).mono ?_
    rintro d _ d' ⟨_, ⟨ht, -⟩, rfl⟩ - h
    rw [show d'.tables = (d.tables.insertEvent e).2 from congrArg Prod.snd ht]
    exact h.insertEvent ho
  | ingest e now =>
    refine ((Engine.meets_ingest e now).map _).mono ?_
    rintro d _ d' ⟨_, ⟨rfl, -⟩, rfl⟩ - h
    exact Data.isAccepted_ingest h ho now
  | replay eventId application subscription now =>
    refine ((Engine.meets_replay eventId application subscription now).map _).mono ?_
    rintro d _ d' ⟨_, ⟨_, targets, -, -, rfl⟩, rfl⟩ - h
    exact Data.isAccepted_replayAll h eventId application now targets
  | claim c now =>
    refine ((Engine.meets_claimNext c now).map _).mono ?_
    rintro d _ d' ⟨_, ⟨rfl, -⟩, rfl⟩ - h
    exact h.congr (d.tables.claim_frame c now)
  | findStale before limit =>
    refine ((Engine.meets_findStale before limit).map _).mono ?_
    rintro d _ d' ⟨_, ⟨-, rfl⟩, rfl⟩ - h
    exact h
  | finalize claimed r now retryAt =>
    refine ((Engine.meets_finalize claimed r now retryAt).map _).mono ?_
    rintro d _ d' ⟨held, ⟨pickedAt, -, -, hd⟩, rfl⟩ hi h
    cases held with
    | false =>
      rw [if_neg Bool.false_ne_true] at hd
      rwa [hd]
    | true =>
      exact h.finish (e := ⟨⟨claimed.attemptId, pickedAt.micros, claimed.workerName⟩,
        Engine.outcomeOf r now retryAt, r⟩) hi ho.1 ho.2 hd.1
  | saveSubscription s =>
    refine ((Engine.meets_saveSubscription s).map _).mono ?_
    rintro d _ d' ⟨_, rfl, rfl⟩ - h
    exact h.saveSubscription ho
  | setEnabled id enabled =>
    refine ((Engine.meets_setSubscriptionEnabled id enabled).map _).mono ?_
    rintro d _ d' ⟨_, ⟨ht, -⟩, rfl⟩ - h
    rw [show d'.tables = (d.tables.setEnabled id enabled).2 from congrArg Prod.snd ht]
    exact h.setEnabled id enabled

end Operation

/-! ## Executions -/

/-- A name that is received more than once has one entry. -/
theorem HeaderBlock.nodup_toEntries (b : HeaderBlock) : (b.toEntries.map (·.1)).Nodup := by
  have hnames (entries : List (String × String)) (h : (entries.map (·.1)).Nodup) (name : String)
      (value : String) : ((Entries.put entries name value).map (·.1)).Nodup :=
    Entries.nodup_put h name value
  unfold toEntries
  exact List.foldlRecOn b.fields _ (by simp) fun entries h _ _ => hnames entries h _ _

namespace Engine

variable {α : Type}

/-- The response obeys the rules and has received texts only. -/
def Accepts (body : Engine Response) : Prop :=
  ∀ w r, (body w).1 = .ok r → r.IsAccepted ∧ r.HasTextHeaders

namespace Accepts

theorem throw (e : OperationError) : Accepts (throw e) := fun _ _ h => by cases h

theorem bind {x : Engine α} {f : α → Engine Response} (hf : ∀ a, Accepts (f a)) :
    Accepts (x >>= f) := by
  intro w r
  rw [bind_apply]
  cases hx : x w with
  | mk result v =>
    cases result with
    | error e => exact fun h => by cases h
    | ok a => exact hf a v r

end Accepts
end Engine

namespace Client

open Engine

/-- What a response can be made of. -/
theorem accepts_respond (start : Int) (a : Attempt) (error : Option FailureKind)
    {received : Option Received}
    (h : ∀ x ∈ received, (x.headers.map (·.1)).Nodup) :
    Accepts (respond start a error received) := by
  rintro w r hr
  cases hr
  refine ⟨⟨Int.le_max_right _ _, fun headers hheaders => ?_⟩, fun headers hheaders x hx => ?_⟩
  · obtain ⟨x, hx, rfl⟩ := Option.map_eq_some_iff.mp hheaders
    rw [List.map_map]
    exact h x hx
  · obtain ⟨y, -, rfl⟩ := Option.map_eq_some_iff.mp hheaders
    obtain ⟨z, -, rfl⟩ := List.mem_map.mp hx
    exact ⟨z.2, rfl⟩

theorem accepts_deliver (settings : WorkerSettings) (fields : LogFields) (start : Int)
    (a : Attempt) (e : Event) (s : Subscription) (now : Int) :
    Accepts (deliver settings fields start a e s now) := by
  have hnone (kind : Option FailureKind) : Accepts (respond start a kind none) :=
    accepts_respond start a kind (by simp)
  refine .bind fun _ => .bind fun _ => .bind fun _ => .bind fun x => ?_
  obtain ⟨reply, exchange⟩ := x
  dsimp only
  split
  case h_6 => exact .throw _
  case h_7 =>
    refine .bind fun _ => accepts_respond start a _ ?_
    rintro _ ⟨⟩
    exact HeaderBlock.nodup_toEntries _
  all_goals exact .bind fun _ => hnone _

/-- The response of an execution obeys the rules. -/
theorem accepts_execute (settings : WorkerSettings) (a : Attempt) (e : Event) (s : Subscription)
    (now : Int) : Accepts (execute settings a e s now) := by
  have hnone (start : Int) (kind : FailureKind) : Accepts (respond start a (some kind) none) :=
    accepts_respond start a _ (by simp)
  refine .bind fun w => .bind fun check => ?_
  cases check with
  | allowed => exact accepts_deliver _ _ _ _ _ _ _
  | refused why => exact .bind fun _ => hnone _ _
  | unresolved err => exact .bind fun _ => hnone _ _
  | unreadableHost e => exact .throw _
  | unreadableAddress address => exact .throw _

end Client

theorem Response.TimesOut.isAccepted {r : Response} {a : Attempt} {now : Int}
    (h : r.TimesOut a now) : r.IsAccepted ∧ r.HasTextHeaders := by
  refine ⟨⟨h.elapsed, fun headers hr => ?_⟩, fun headers hr => ?_⟩ <;>
    rw [h.headers] at hr <;> cases hr

/-! ## Requests -/

namespace Request

/-- The records that a request brings with it obey the rules of their kinds. -/
def IsAccepted : Request → Prop
  | operation o => o.IsAccepted
  | _ => True

theorem performs_process_isAccepted (u : WorkerUnit) (claim : Claim) :
    Engine.Performs Operation.IsAccepted (fun _ => True) (u.process claim) fun _ => True := by
  have hexecute (now : Int) : Engine.Performs Operation.IsAccepted (fun _ => True)
      (Client.execute u.settings claim.attempt claim.event claim.subscription now)
      fun r => r.Answers claim.attempt ∧ r.IsAccepted ∧ r.HasTextHeaders := by
    intro w
    obtain ⟨hrun, hanswers⟩ := Client.performs_execute u.settings claim.attempt claim.event
      claim.subscription now w
    exact ⟨hrun, fun r hr => ⟨hanswers r hr, Client.accepts_execute _ _ _ _ _ w r hr⟩⟩
  exact Engine.performs_clock.bind fun now _ => (hexecute now).bind fun r hr =>
    Engine.performs_clock.bind fun later _ =>
      u.performs_finalize trivial hr.1 fun _ _ => hr.2

/-- Requests with records that obey the rules leave rows whose records do. -/
theorem isAccepted_run (q : Request) {w : World} (hw : w.store.IsTended) (hq : q.IsAccepted)
    (h : w.store.tables.IsAccepted) : (q.run w).2.store.tables.IsAccepted := by
  have hmeets : ∀ o : Operation, o.IsAccepted →
      o.run.Meets fun d _ d' => d.tables.Indexed → d.tables.IsAccepted → d'.tables.IsAccepted :=
    fun _ => Operation.meets_isAccepted
  cases q with
  | operation o =>
    rw [run, Engine.store_map]
    exact Call.keeps_of_meets (x := ⟨o, w⟩) hw.idle hw.intact.sound.toIndexed (hmeets o hq) h
  | query q => rwa [run, q.keeps_run w]
  | markDispatched id time =>
    rw [run, Engine.store_map]
    refine Engine.atomically_invariant hw.idle (I := Tables.IsAccepted) h ?_
    refine (Engine.meets_markDispatched id time).mono ?_
    rintro d _ d' ⟨ht, -⟩ hd
    rw [show d'.tables = (d.tables.markDispatched id time).2 from congrArg Prod.snd ht]
    exact hd.markDispatched id time
  | dispatchPending now limit =>
    obtain ⟨calls, hrun, hoperations, -⟩ :=
      Engine.run_dispatchPending (fun _ => True) now limit w
    rw [run, Engine.store_map]
    refine hrun.keeps_of_meets (fun x hx => ?_) hw.idle hw.intact h
    obtain ⟨e, he, -, ho⟩ := hoperations x hx
    exact hmeets _ (ho ▸ h.events e (Tables.mem_undispatched he).1)
  | process u claim =>
    rw [run, Engine.store_map]
    exact (performs_process_isAccepted u claim).keeps_of_meets hmeets hw.idle hw.intact h
  | reap u now =>
    have hp : Engine.Performs Operation.IsAccepted (fun _ => True) (u.reap now) fun _ => True :=
      u.performs_reap_of _ (fun _ _ => trivial) fun _ _ _ hr _ => hr.isAccepted
    rw [run, Engine.store_map]
    exact hp.keeps_of_meets hmeets hw.idle hw.intact h

end Request

namespace Store

/-- A dated request with records that obey the rules leads from a store to another. -/
def AsksAccepted (s t : Store) : Prop :=
  ∃ (q : Request) (w : World), (q.IsDated w ∧ q.IsAccepted) ∧ w.store = s ∧
    (q.run w).2.store = t

abbrev LeadsAccepted : Store → Store → Prop := Relation.ReflTransGen AsksAccepted

variable {s t : Store} {w : World}

theorem LeadsAccepted.leadsDated (h : s.LeadsAccepted t) : s.LeadsDated t :=
  h.lift id fun _ _ ⟨q, w, hq, hs, ht⟩ => ⟨q, w, hq.1, hs, ht⟩

theorem leadsAccepted_runAll (w : World) {operations : List Operation}
    (h : ∀ o ∈ operations, o.IsDated ∧ o.IsAccepted) :
    w.store.LeadsAccepted (w.runAll operations).store := by
  induction operations generalizing w with
  | nil => exact .refl
  | cons o rest ih =>
    rw [List.forall_mem_cons] at h
    have hq : w.store.AsksAccepted (o.run w).2.store :=
      ⟨.operation o, w, h.1, rfl, by rw [Request.run, Engine.store_map]⟩
    exact .trans (.single hq) (ih (o.run w).2 h.2)

/-- Where only such requests lead, the records of all rows obey the rules. -/
theorem LeadsAccepted.isAccepted {onFile : Bool} (h : (Store.create onFile).LeadsAccepted s) :
    s.tables.IsAccepted := by
  induction h with
  | refl => exact Tables.isAccepted_empty
  | tail hprefix hstep ih =>
    obtain ⟨q, w, hq, rfl, rfl⟩ := hstep
    exact q.isAccepted_run (LeadsAccepted.leadsDated hprefix).leads.isTended hq.2 ih

end Store

theorem WorkerUnit.leadsAccepted_runOnce (u : WorkerUnit) {w : World}
    (hn : ClockTime.inRange w.clock) (hend : ClockTime.inRange (u.runOnce w).2.2.clock) :
    w.store.LeadsAccepted (u.runOnce w).2.2.store := by
  refine u.reaches_runOnce (fun q w hunit hq => ⟨q, w, ⟨hq, ?_⟩, rfl, rfl⟩) hn hend
  cases q with
  | operation o =>
    cases o with
    | claim c now => trivial
    | _ => cases hunit
  | _ => trivial

/-! ## Reading back -/

open Engine in
/-- Where dated requests with records that obey the rules have led, every row is read back from its
columns as its record. If fewer responses are recorded than can be counted, every query gives the rows
that it selects, each of them read back; stale claims are found and attempts are claimed, and every
event can be submitted. A turn of a unit leads on by such requests as long as the clock does not leave
the calendar. -/
theorem stored_rows_can_be_read {onFile : Bool} {w : World}
    (h : (Store.create onFile).LeadsAccepted w.store)
    (bounded : (w.store.tables.responses.length : Int) ≤ AttemptRow.maxInteger) :
    (w.store.tables.columns.events.mapM EventColumns.read = .ok w.store.tables.events ∧
      w.store.tables.columns.subscriptions.mapM SubscriptionColumns.read =
        .ok w.store.tables.subscriptions ∧
      w.store.tables.columns.responses.mapM ResponseColumns.read =
        .ok w.store.tables.responses) ∧
    (∀ application enabledOnly, (listSubscriptions application enabledOnly w).1 =
      .ok (w.store.tables.subscriptionsOf application enabledOnly)) ∧
    (∀ id scope, (getSubscription id scope w).1 =
      .ok (inScope scope Subscription.applicationId (w.store.tables.subscription? id))) ∧
    (∀ id scope, (getEvent id scope w).1 =
      .ok (inScope scope Event.applicationId (w.store.tables.event? id))) ∧
    (∀ limit, Fits limit → (listUndispatched limit w).1 =
      .ok (w.store.tables.undispatched limit)) ∧
    (∀ application filter now limit offset, Fits limit → Fits offset →
      (listAttempts application filter now limit offset w).1 =
        .ok ((w.store.tables.attemptsOf application filter now limit offset).map (·.record))) ∧
    (∀ attempt, (listResponses attempt w).1 = .ok (w.store.tables.responsesOf attempt)) ∧
    (∀ before limit, Fits limit → ∃ claims, (findStale before limit w).1 = .ok claims ∧
      List.Forall₂ (fun row (claim : Claim) => claim.Loads w.store.tables row)
        (w.store.tables.staleClaims before limit) claims) ∧
    (∀ c now, ClockTime.inRange now → ∃ found, (claimNext c now w).1 = .ok found ∧
      found.map (·.attempt) =
        (w.store.tables.nextClaim? c now).map fun row => (row.claimedBy c now).record) ∧
    (∀ e now, ∃ created, (ingest e now w).1 = .ok created) ∧
    ∀ u : WorkerUnit, ClockTime.inRange w.clock → ClockTime.inRange (u.runOnce w).2.2.clock →
      (Store.create onFile).LeadsAccepted (u.runOnce w).2.2.store := by
  have hleads : (Store.create onFile).Leads w.store := h.leadsDated.leads
  have htended := hleads.isTended
  have hl : w.data.tables.IsLegible := ⟨htended.intact, h.leadsDated.isReadable, bounded⟩
  have ho := htended.idle.isOpen
  have hi : ∀ d : Data, d.tables.IsLegible → d.tables.Intact := fun d hd => hd.intact
  refine ⟨h.isAccepted.read_columns hl.readable, fun application enabledOnly => ?_,
    fun id scope => ?_, fun id scope => ?_, fun limit fits => ?_,
    fun application filter now limit offset hlimit hoffset => ?_, fun attempt => ?_,
    fun before limit fits => ?_, fun c now hn => ?_, fun e now => ?_,
    fun u hn hend => h.trans (u.leadsAccepted_runOnce hn hend)⟩
  · exact (completes_listSubscriptions hi fun d hd s hs =>
      hd.subscription (Data.mem_subscriptionsOf hs).1).value (meets_listSubscriptions _ _) ho hl
  · exact (completes_getSubscription hi scope fun d hd s hs =>
      hd.subscription (List.mem_of_find?_eq_some hs)).value (meets_getSubscription _ _) ho hl
  · exact (completes_getEvent hi scope fun d hd e he =>
      hd.readable.events e (Data.mem_of_event? he).1).value (meets_getEvent _ _) ho hl
  · have hm : Meets (listUndispatched limit) fun d events d' =>
        events = d.tables.undispatched limit ∧ d' = d :=
      (meets_listUndispatched limit).mono fun _ _ _ h => ⟨h.1, h.2.2⟩
    exact (completes_listUndispatched hi fits fun d hd e he =>
      hd.readable.events e (Tables.mem_undispatched he).1).value hm ho hl
  · rw [listAttempts_apply (hleads.strays.isCoherent (Store.isCoherent_create onFile)) application
      filter now hlimit hoffset, AttemptRow.mapM_read fun r hr => hl.attempt ?_]
    · rfl
    · have hm := List.mem_of_mem_drop (Tables.mem_of_mem_limited hr)
      exact List.mem_of_mem_filter (List.mem_mergeSort.mp hm)
  · refine (completes_listResponses hi fun d hd x hx => ?_).value (meets_listResponses _) ho hl
    exact Response.readRow_eq_ok
      (hd.readable.responses x (List.mem_of_mem_filter (List.mem_mergeSort.mp hx)))
  · have hstale : ∃ claims, (findStale before limit w).1 = .ok claims :=
      completes_findStale_of_isLegible fits w ho hl
    obtain ⟨claims, hclaims⟩ := hstale
    exact ⟨claims, hclaims, ((meets_findStale before limit w).2 claims hclaims).1⟩
  · obtain ⟨found, hfound⟩ := completes_claimNext_of_isLegible c hn w ho hl
    refine ⟨found, hfound, ?_⟩
    have hloads := ((meets_claimNext c now w).2 found hfound).2
    change found.map _ = (w.data.tables.nextClaim? c now).map _
    cases hnext : w.data.tables.nextClaim? c now with
    | none =>
      rw [hnext] at hloads
      rw [hloads]
      rfl
    | some r =>
      rw [hnext] at hloads
      obtain ⟨claim, rfl, hclaim⟩ := hloads
      exact congrArg some (AttemptRow.read_eq_ok_iff.mp hclaim.attempt).2
  · exact completes_ingest_of_isLegible e now w ho hl

namespace Sample

theorem isAccepted_subscription : subscription.IsAccepted :=
  ⟨by decide, by decide, by decide, by decide, ⟨by decide, by decide, by decide, by decide⟩,
    by decide, by decide, by rintro _ ⟨⟩⟩

/-- A subscription with a schedule of its own. -/
def patient : Subscription :=
  { subscription with subscriptionId := .ofNat 5, retrySchedule := some ⟨.linear, [60, 3600], 2⟩ }

/-- A receiver asks for another try. -/
def busy : Response :=
  { response 11 (some .http) with
    httpCode := some 503, headers := some [("retry-after", .str "1")], body := some "busy" }

/-- The first attempt of a subscription is to be tried once more. Then there are another subscription
and another event, whose payload is no text. -/
def resume : List Operation :=
  begin ++ [.claim claimant 1, .finalize (claimed 1) busy 2 (some 3), .saveSubscription patient,
    .storeEvent { event with eventId := .ofNat 4, payload := [255, 0] }]

def resumed : World := world.runAll resume

theorem isAccepted_resume : ∀ o ∈ resume, o.IsDated ∧ o.IsAccepted := by
  intro o ho
  rcases List.mem_append.mp ho with ho | ho
  · refine ⟨isDated_begin o ho, ?_⟩
    simp only [begin, List.mem_cons, List.not_mem_nil, or_false] at ho
    rcases ho with rfl | rfl | rfl
    · exact isAccepted_subscription
    · exact ⟨by decide, by decide, by decide, by decide⟩
    · trivial
  · simp only [List.mem_cons, List.not_mem_nil, or_false] at ho
    rcases ho with rfl | rfl | rfl | rfl
    · exact ⟨(by decide : ClockTime.inRange 1), trivial⟩
    · refine ⟨⟨by decide, by decide, by decide⟩, ⟨by decide, by rintro _ ⟨⟩; decide⟩, ?_⟩
      rintro _ ⟨⟩ x hx
      exact ⟨_, congrArg Prod.snd (List.mem_singleton.mp hx)⟩
    · refine ⟨(by decide : ClockTime.inRange 0), { isAccepted_subscription with schedule := ?_ }⟩
      rintro _ ⟨⟩
      exact ⟨by decide, by decide, by decide⟩
    · exact ⟨Event.check_eq_ok_iff.mpr (by decide), by decide, by decide, by decide, by decide⟩

end Sample

open Sample in
/-- All rows of a delivery that is to be resumed are read back from their columns. Its subscription is
listed with the other one, its response is listed, and its attempt is handed out again. -/
theorem resumed_delivery_can_be_read :
    (resumed.store.tables.columns.subscriptions.mapM SubscriptionColumns.read =
          .ok [subscription, patient] ∧
        (resumed.store.tables.columns.events.mapM EventColumns.read).map
          (·.map (·.payload)) = .ok [[], [255, 0]] ∧
        resumed.store.tables.columns.responses.mapM ResponseColumns.read = .ok [busy]) ∧
      (∃ listed, (Engine.listSubscriptions application true resumed).1 = .ok listed ∧
        listed.Perm [subscription, patient]) ∧
      (Engine.listResponses (claimed 1).attemptId resumed).1 = .ok [busy] ∧
      (∃ found, (Engine.claimNext claimant 4 resumed).1 = .ok found ∧
        found.map (fun c => (c.attempt.attemptId, c.attempt.retryCount)) =
          some ((claimed 1).attemptId, 1)) ∧
      ∃ created, (Engine.ingest event 5 resumed).1 = .ok created := by
  have h : (Store.create true).LeadsAccepted resumed.store :=
    Store.leadsAccepted_runAll world isAccepted_resume
  have hbounded : (resumed.store.tables.responses.length : Int) ≤ AttemptRow.maxInteger := by
    decide +kernel
  obtain ⟨⟨hevents, hrows, hread⟩, hsubscriptions, -, -, -, -, hresponses, -, hclaim, hingest, -⟩ :=
    stored_rows_can_be_read h hbounded
  have hstored : resumed.store.tables.subscriptions = [subscription, patient] := rfl
  have hrecorded : resumed.store.tables.responses = [busy] := rfl
  refine ⟨⟨hrows.trans (congrArg _ hstored), ?_, hread.trans (congrArg _ hrecorded)⟩,
    ⟨_, hsubscriptions application true, ?_⟩, ?_, ?_, hingest event 5⟩
  · rw [hevents]
    rfl
  · refine (List.mergeSort_perm _ _).trans (.of_eq ?_)
    rw [hstored]
    decide +kernel
  · refine (hresponses _).trans (congrArg Except.ok ?_)
    rw [Tables.responsesOf, hrecorded]
    exact List.mergeSort_singleton busy
  · obtain ⟨found, hfound, hattempt⟩ := hclaim claimant 4 (by decide)
    have hnext : (resumed.store.tables.nextClaim? claimant 4).map
        (fun r => (r.attemptId, r.retryCount)) = some ((claimed 1).attemptId, 1) := by
      decide +kernel
    refine ⟨found, hfound, ?_⟩
    have hmap := congrArg (Option.map fun a => (a.attemptId, a.retryCount)) hattempt
    rw [Option.map_map, Option.map_map] at hmap
    exact hmap.trans hnext

/-- A subscription that obeys the rules, which a clock in the west dates in the last hour of the year
9999: it is saved, but then its row has no record, and neither can the subscriptions of its application
be listed nor events be submitted. -/
theorem western_subscription_blocks_its_application :
    Sample.western.IsAccepted ∧ ClockTime.inRange Sample.western.createdAt.reading ∧
      (Engine.saveSubscription Sample.western Sample.world).1 = .ok () ∧
      (∀ enabledOnly, (Engine.listSubscriptions Sample.application enabledOnly
        (Engine.saveSubscription Sample.western Sample.world).2).1 =
          .error (.record (.time .outOfRange))) ∧
      (Engine.getSubscription Sample.western.subscriptionId none
        (Engine.saveSubscription Sample.western Sample.world).2).1 =
          .error (.record (.time .outOfRange)) ∧
      (Engine.ingest Sample.event 0
        (Engine.saveSubscription Sample.western Sample.world).2).1 =
          .error (.record (.time .outOfRange)) := by
  refine ⟨{ Sample.isAccepted_subscription with }, by decide, rfl, ?_, rfl, ?_⟩
  · intro enabledOnly
    cases enabledOnly <;> decide +kernel
  · decide +kernel

end WebhookDelivery
