import WebhookDelivery.Proofs.Columns
import WebhookDelivery.Proofs.Origins
import WebhookDelivery.Proofs.Reaping

/-!
# WebhookDelivery.Proofs.Storage

Records survive storage.

* `Engine.insertEvent_apply`, `Engine.saveSubscription_apply`, `Engine.finalize_ok`: what the
  operations that store a record leave.
* `Event.ReadsBack` and the like: the columns of its row tell the record, and the engine finds it.
* `records_survive_storage`: what is stored under a new identifier is read back as it was, but that
  its times are moved to universal time, and a subscription that is saved again keeps its
  application and its time of creation.
-/

namespace WebhookDelivery

/-- The world with other tables. -/
def World.withTables (w : World) (t : Tables) : World :=
  { w with store := { w.store with tables := t } }

/-! ## Statements -/

namespace Tables

variable {t t' : Tables}

theorem subscription?_saveSubscription_of_new {s : Subscription}
    (h : t.subscription? s.subscriptionId = none) :
    (t.saveSubscription s).subscription? s.subscriptionId = some s.toRow := by
  have hnone : ¬(t.subscriptions.any fun old => old.subscriptionId == s.toRow.subscriptionId) := by
    rw [subscription?, List.find?_eq_none] at h
    rw [List.any_eq_true]
    rintro ⟨old, hold, hsame⟩
    exact h old hold hsame
  have hself : [s.toRow].find? (·.subscriptionId == s.subscriptionId) = some s.toRow :=
    List.find?_cons_of_pos (beq_iff_eq.mpr rfl)
  rw [subscription?] at h
  unfold saveSubscription subscription?
  dsimp only
  rw [if_neg hnone, List.find?_append, h, Option.none_or, hself]

theorem subscription?_saveSubscription_of_known {s old : Subscription}
    (h : t.subscription? s.subscriptionId = some old) :
    (t.saveSubscription s).subscription? s.subscriptionId =
      some { s.toRow with applicationId := old.applicationId, createdAt := old.createdAt } := by
  have hold : (old.subscriptionId == s.toRow.subscriptionId) = true :=
    List.find?_some (p := fun x : Subscription => x.subscriptionId == s.subscriptionId) h
  have hany : (t.subscriptions.any fun old => old.subscriptionId == s.toRow.subscriptionId) :=
    List.any_eq_true.mpr ⟨old, List.mem_of_find?_eq_some h, hold⟩
  have hselect : (fun x : Subscription => x.subscriptionId == s.subscriptionId) ∘
      (fun x => if x.subscriptionId == s.toRow.subscriptionId then
        { s.toRow with applicationId := x.applicationId, createdAt := x.createdAt } else x) =
      fun x => x.subscriptionId == s.subscriptionId := by
    funext x
    rw [Function.comp_apply]
    split
    · rename_i hx
      exact (beq_self_eq_true _).trans hx.symm
    · rfl
  unfold saveSubscription subscription? updateRows
  dsimp only
  rw [if_pos hany]
  dsimp only
  rw [List.find?_map, hselect, ← subscription?, h, Option.map_some, if_pos hold]

/-- The tables after the outcome of a claim was recorded. -/
def finalized (t : Tables) (claimed : Attempt) (pickedAt : ClockTime) (o : Outcome) (r : Response) :
    Tables :=
  { t with
    attempts := updateRows (AttemptRow.holdsClaim claimed.attemptId pickedAt.micros
      claimed.workerName) (o.apply r.responseId) t.attempts
    responses := t.responses ++ [r.toRow] }

theorem keepsReferences_finalized (claimed : Attempt) (pickedAt : ClockTime) (o : Outcome)
    (r : Response) : keepsReferences t (t.finalized claimed pickedAt o r) = true := by
  have hresponses : ∀ id, (t.finalized claimed pickedAt o r).response? id = none →
      t.response? id = none ∧ id ≠ r.responseId := by
    intro id h
    rw [response?, finalized, List.find?_append, Option.or_eq_none_iff] at h
    refine ⟨h.1, ?_⟩
    rintro rfl
    simp [Response.toRow] at h
  rw [keepsReferences, Bool.or_eq_true, List.all_eq_true]
  refine .inr fun p hp => List.contains_iff_mem.mpr ?_
  obtain ⟨x', hx', hattempt, hresponse, hnone⟩ := mem_dangling.mp hp
  obtain ⟨hbefore, hne⟩ := hresponses _ hnone
  obtain ⟨x, hx, rfl⟩ := mem_updateRows.mp hx'
  split_ifs at hattempt hresponse
  · rw [Outcome.apply_responseId, Option.some.injEq] at hresponse
    exact absurd hresponse.symm hne
  · exact mem_dangling.mpr ⟨x, hx, hattempt, hresponse, hbefore⟩

theorem insertResponse_release {claimed : Attempt} {pickedAt : ClockTime} {o : Outcome}
    {r : Response} (new : t.response? r.responseId = none)
    (there : (t.attempt? r.attemptId).isSome) :
    (t.release claimed.attemptId pickedAt.micros claimed.workerName o r.responseId).2.insertResponse
      r = .ok (t.finalized claimed pickedAt o r) := by
  rw [attempt?, List.find?_isSome] at there
  obtain ⟨a, ha, hid⟩ := there
  refine insertResponse_of_new new ⟨_, mem_updateRows.mpr ⟨a, ha, rfl⟩, ?_⟩
  rw [beq_iff_eq] at hid
  split
  · rw [(o.apply_frame r.responseId a).1, hid]
  · exact hid

theorem response?_finalized (claimed : Attempt) (pickedAt : ClockTime) (o : Outcome) {r : Response}
    (new : t.response? r.responseId = none) :
    (t.finalized claimed pickedAt o r).response? r.responseId = some r.toRow := by
  have hself : [r.toRow].find? (·.responseId == r.responseId) = some r.toRow :=
    List.find?_cons_of_pos (beq_iff_eq.mpr rfl)
  rw [response?] at new
  rw [response?, finalized, List.find?_append, new, Option.none_or, hself]

end Tables

/-! ## Operations -/

namespace Engine

variable {α : Type} {w : World}

/-- A change of one table, as a transaction of its own. -/
theorem atomically_change (hw : w.store.IsIdle) (hl : w.store.tables.lost = []) (name : TableName)
    (f : Tables → α × Tables)
    (hk : Tables.keepsReferences w.store.tables (f w.store.tables).2 = true) :
    atomically (do touch name; change f) w =
      (.ok (f w.store.tables).1, w.withTables (f w.store.tables).2) := by
  rw [atomically_apply hw.isOpen hw.inTransaction (x := (f w.store.tables).1)
    (v := { w with store := { w.store with
      tables := (f w.store.tables).2, inTransaction := true } })
    ?_ hk, ← hw.inTransaction]
  · rfl
  · rw [bind_apply, touch_apply (by exact hl)]
    rfl

theorem insertEvent_apply (hw : w.store.IsIdle) (hl : w.store.tables.lost = []) (e : Event) :
    insertEvent e w = (.ok (w.store.tables.insertEvent e).1,
      w.withTables (w.store.tables.insertEvent e).2) := by
  refine atomically_change hw hl .event (·.insertEvent e) ?_
  refine Tables.keepsReferences_of_dangling_eq ?_
  unfold Tables.insertEvent
  split <;> rfl

theorem saveSubscription_apply (hw : w.store.IsIdle) (hl : w.store.tables.lost = [])
    (s : Subscription) : saveSubscription s w =
      (.ok (), w.withTables (w.store.tables.saveSubscription s)) := by
  refine atomically_change hw hl .subscription (fun t => ((), t.saveSubscription s)) ?_
  refine Tables.keepsReferences_of_dangling_eq ?_
  unfold Tables.saveSubscription
  dsimp only
  split <;> rfl

theorem insertResponse_ok {r : Response} {t : Tables} (hl : w.store.tables.lost = [])
    (hcode : ∀ code ∈ r.httpCode, Fits code) (helapsed : Fits r.elapsedMs)
    (h : w.store.tables.insertResponse r = .ok t) :
    insertResponse r w = (.ok (), w.withTables t) := by
  have hstatement : statement (fun t => (t.insertResponse r).map fun t => ((), t)) w =
      (.ok (), w.withTables t) := by
    rw [statement_apply, h]
    rfl
  unfold insertResponse
  rw [bind_apply, touch_apply hl]
  dsimp only
  cases hc : r.httpCode with
  | none =>
    change (checkInteger r.elapsedMs >>= fun _ => statement _) w = _
    rw [bind_apply, checkInteger_apply helapsed]
    exact hstatement
  | some code =>
    dsimp only
    rw [bind_apply, checkInteger_apply (hcode code hc)]
    dsimp only
    rw [bind_apply, checkInteger_apply helapsed]
    exact hstatement

/-- The response of a claim that is held is stored. -/
theorem finalize_ok (hw : w.store.IsIdle) (hl : w.store.tables.lost = []) {claimed : Attempt}
    {pickedAt : ClockTime} (picked : claimed.pickedAt = some pickedAt)
    (held : w.store.tables.attempts.any
      (AttemptRow.holdsClaim claimed.attemptId pickedAt.micros claimed.workerName) = true)
    {r : Response} (new : w.store.tables.response? r.responseId = none)
    (there : (w.store.tables.attempt? r.attemptId).isSome)
    (hcode : ∀ code ∈ r.httpCode, Fits code) (helapsed : Fits r.elapsedMs)
    (now : Int) (retryAt : Option Int) :
    finalize claimed r now retryAt w = (.ok true, w.withTables
      (w.store.tables.finalized claimed pickedAt (outcomeOf r now retryAt) r)) := by
  unfold finalize
  rw [picked]
  dsimp only
  rw [atomically_apply hw.isOpen hw.inTransaction (x := true) (v := { w with store := { w.store with
    tables := w.store.tables.finalized claimed pickedAt (outcomeOf r now retryAt) r,
    inTransaction := true } }) ?_ (Tables.keepsReferences_finalized _ _ _ _), ← hw.inTransaction]
  · rfl
  · rw [bind_apply, touch_apply (by exact hl)]
    dsimp only
    rw [bind_apply, change_apply]
    dsimp only
    rw [if_pos (by exact held), bind_apply, insertResponse_ok (by exact hl) hcode helapsed
      (Tables.insertResponse_release new there)]
    rfl

theorem getResponse_apply (hw : w.store.IsIdle) (hl : w.store.tables.lost = []) (id : Uuid)
    (scope : Option Uuid) : getResponse id scope w =
      (((inScope scope Response.applicationId (w.store.tables.response? id)).mapM
        Response.readRow).mapError .record, w) := by
  unfold getResponse
  rw [bind_apply, query_apply hw.isOpen hl]
  exact readRow_apply _ _ _ _

theorem inScope_some {α : Type} {scope : Option Uuid} {owner : α → Uuid} {row : α}
    (h : scope.all (· == owner row)) : inScope scope owner (some row) = some row :=
  Option.filter_some_pos h

end Engine

/-! ## Records -/

/-- The columns of its row tell the event, and the engine finds it. -/
structure Event.ReadsBack (e : Event) (w : World) : Prop where
  columns : (w.store.tables.columns.event? e.eventId.write).map EventColumns.read = some (.ok e)
  found : ∀ scope : Option Uuid, scope.all (· == e.applicationId) →
    Engine.getEvent e.eventId scope w = (.ok (some e), w)

structure Subscription.ReadsBack (s : Subscription) (w : World) : Prop where
  columns : (w.store.tables.columns.subscription? s.subscriptionId.write).map
    SubscriptionColumns.read = some (.ok s)
  found : ∀ scope : Option Uuid, scope.all (· == s.applicationId) →
    Engine.getSubscription s.subscriptionId scope w = (.ok (some s), w)

structure Response.ReadsBack (r : Response) (w : World) : Prop where
  columns : (w.store.tables.columns.response? r.responseId.write).map ResponseColumns.read =
    some (.ok r)
  found : ∀ scope : Option Uuid, scope.all (· == r.applicationId) →
    Engine.getResponse r.responseId scope w = (.ok (some r), w)

/-- The numbers of the response are those that a column of integers can hold. -/
structure Response.IsStorable (r : Response) : Prop where
  httpCode : ∀ code ∈ r.httpCode, Engine.Fits code
  elapsed : Engine.Fits r.elapsedMs

section ReadingBack

variable {w : World} (hw : w.store.IsIdle) (hl : w.store.tables.lost = [])
include hw hl

theorem Event.readsBack {e : Event} (h : e.IsAccepted) (dated : e.check = .ok e)
    (stored : w.store.tables.event? e.eventId = some e) : e.ReadsBack w := by
  obtain ⟨⟨hoccurred, hreceived, hdispatched⟩, -⟩ := check_eq_ok_iff.mp dated
  constructor
  · rw [Tables.columns_event?, stored, Option.map_some, Option.map_some,
      read_columns h hoccurred hreceived fun t ht => by rwa [Option.mem_def.mp ht] at hdispatched]
  · intro scope hscope
    rw [Engine.getEvent_apply hw.isOpen hl, stored, Engine.inScope_some hscope, Option.mapM_some,
      dated]
    rfl

/-- A row whose time was moved to universal time is read back as it is. -/
theorem Subscription.readsBack {s : Subscription} (h : s.IsAccepted)
    (created : ClockTime.inRange s.createdAt.micros) (row : s.toRow = s)
    (stored : w.store.tables.subscription? s.subscriptionId = some s) : s.ReadsBack w := by
  constructor
  · rw [Tables.columns_subscription?, stored, Option.map_some, Option.map_some,
      read_columns h created, row]
  · intro scope hscope
    rw [Engine.getSubscription_apply hw.isOpen hl, stored, Engine.inScope_some hscope,
      Option.mapM_some, readRow_eq_ok created]
    rfl

theorem Response.readsBack {r : Response} (h : r.IsAccepted) (texts : r.HasTextHeaders)
    (created : ClockTime.inRange r.createdAt.micros) (row : r.toRow = r)
    (stored : w.store.tables.response? r.responseId = some r) : r.ReadsBack w := by
  constructor
  · rw [Tables.columns_response?, stored, Option.map_some, Option.map_some,
      read_columns h texts created, row]
  · intro scope hscope
    rw [Engine.getResponse_apply hw hl, stored, Engine.inScope_some hscope, Option.mapM_some,
      readRow_eq_ok created]
    rfl

end ReadingBack

section Storing

variable {w : World} (hw : w.store.IsCoherent)
include hw

theorem Event.readsBack_insertEvent {e : Event} (h : e.IsAccepted) (dated : e.check = .ok e)
    (new : w.store.tables.event? e.eventId = none) :
    ∃ v, Engine.insertEvent e w = (.ok true, v) ∧
      v.store.tables.columns = w.store.tables.columns.insertEvent e.columns ∧ e.ReadsBack v := by
  have hl := hw.indexed.lost
  have htrue : (w.store.tables.insertEvent e).1 = true := by
    rw [Tables.insertEvent, new]
    rfl
  have hstored := w.store.tables.event?_insertEvent e
  rw [new, Option.getD_none] at hstored
  refine ⟨_, ?_, w.store.tables.columns_insertEvent e, readsBack
    (w := w.withTables (w.store.tables.insertEvent e).2) ⟨hw.idle.isOpen, hw.idle.inTransaction⟩
    ((w.store.tables.registers_insertEvent e).lost.trans hl) h dated hstored⟩
  rw [Engine.insertEvent_apply hw.idle hl, htrue]

namespace Subscription

/-- What is saved is read back with the application and the time that its row has then. -/
theorem readsBack_saveSubscription {s : Subscription} (h : s.IsAccepted) {application : Uuid}
    {micros : Int} (created : ClockTime.inRange micros)
    (stored : (w.store.tables.saveSubscription s).subscription? s.subscriptionId =
      some { s with applicationId := application, createdAt := .utc micros }) :
    ReadsBack { s with applicationId := application, createdAt := .utc micros }
      (w.withTables (w.store.tables.saveSubscription s)) := by
  refine readsBack (w := w.withTables (w.store.tables.saveSubscription s))
    ⟨hw.idle.isOpen, hw.idle.inTransaction⟩
    ((w.store.tables.registers_saveSubscription s).lost.trans hw.indexed.lost) { h with } ?_ ?_
    stored
  · rwa [ClockTime.micros_utc]
  · unfold toRow
    rw [ClockTime.micros_utc]

/-- What is saved again after anything that was done in between. -/
theorem readsBack_of_strays {s last : Subscription} {u : World}
    (created : ClockTime.inRange s.createdAt.micros)
    (new : w.store.tables.subscription? s.subscriptionId = none)
    (between : (w.withTables (w.store.tables.saveSubscription s)).store.Strays u.store)
    (h : last.IsAccepted) (same : last.subscriptionId = s.subscriptionId) :
    ∃ v, Engine.saveSubscription last u = (.ok (), v) ∧
      v.store.tables.columns = u.store.tables.columns.saveSubscription last.columns ∧
      ReadsBack { last with
        applicationId := s.applicationId, createdAt := .utc s.createdAt.micros } v := by
  have hsaved : w.store.Asks (w.withTables (w.store.tables.saveSubscription s)).store := by
    refine ⟨.operation (.saveSubscription s), w, rfl, ?_⟩
    rw [Request.run, Engine.store_map, Operation.run, Engine.store_map,
      Engine.saveSubscription_apply hw.idle hw.indexed.lost s]
  have hfirst := hsaved.isCoherent hw
  have hu := between.isCoherent hfirst
  obtain ⟨old, hold, horigin⟩ :=
    between.subscription? hfirst (Tables.subscription?_saveSubscription_of_new new)
  obtain ⟨happlication, htime⟩ := Prod.mk.inj (Prod.mk.inj horigin).2
  have hstored := Tables.subscription?_saveSubscription_of_known (s := last) (same ▸ hold)
  rw [happlication, htime] at hstored
  exact ⟨_, Engine.saveSubscription_apply hu.idle hu.indexed.lost last,
    u.store.tables.columns_saveSubscription last,
    readsBack_saveSubscription hu h created hstored⟩

end Subscription

theorem Response.readsBack_finalize {claimed : Attempt} {token : ClaimToken} {r : Response}
    (h : r.IsAccepted) (texts : r.HasTextHeaders) (storable : r.IsStorable)
    (created : ClockTime.inRange r.createdAt.micros)
    (new : w.store.tables.response? r.responseId = none)
    (there : (w.store.tables.attempt? r.attemptId).isSome) (picked : claimed.token? = some token)
    (held : w.store.tables.attempts.any token.holds = true) (now : Int) (retryAt : Option Int) :
    ∃ v, Engine.finalize claimed r now retryAt w = (.ok true, v) ∧
      w.store.tables.columns.insertResponse r.columns = .ok v.store.tables.columns ∧
      ReadsBack { r with createdAt := .utc r.createdAt.micros } v := by
  obtain ⟨pickedAt, hpicked, rfl⟩ := Option.map_eq_some_iff.mp picked
  have hl := hw.indexed.lost
  refine ⟨_, Engine.finalize_ok hw.idle hl hpicked held new there storable.httpCode
    storable.elapsed now retryAt, ?_, ?_⟩
  · -- The columns leave out the attempts, so that those of the released tables are the same.
    have hrecorded : (w.store.tables.release claimed.attemptId pickedAt.micros claimed.workerName
        (Engine.outcomeOf r now retryAt) r.responseId).2.insertResponse r =
        .ok (w.store.tables.finalized claimed pickedAt (Engine.outcomeOf r now retryAt) r) :=
      Tables.insertResponse_release new there
    exact (Tables.columns_insertResponse hrecorded :)
  · refine readsBack (w := w.withTables (w.store.tables.finalized claimed pickedAt
      (Engine.outcomeOf r now retryAt) r)) ⟨hw.idle.isOpen, hw.idle.inTransaction⟩ hl
      ⟨h.elapsed, h.headers⟩ texts ?_ ?_ (Tables.response?_finalized claimed pickedAt _ new)
    · rwa [ClockTime.micros_utc]
    · unfold toRow
      rw [ClockTime.micros_utc]

end Storing

/-- In every store to which requests, changes of rows and insertions of attempts lead, a record that
obeys the rules of its kind, has times in the calendar and is stored under a new identifier is read
back, by its columns and by the engine, with its times moved to universal time and all else as it
was. A subscription that is saved again, whatever was done in between, is read back as it was saved
last, but with the application and the time of creation that it was saved with first. -/
theorem records_survive_storage {onFile : Bool} {w : World}
    (h : (Store.create onFile).Strays w.store) :
    (∀ e : Event, e.IsAccepted → e.check = .ok e → w.store.tables.event? e.eventId = none →
      ∃ v, Engine.insertEvent e w = (.ok true, v) ∧
        v.store.tables.columns = w.store.tables.columns.insertEvent e.columns ∧ e.ReadsBack v) ∧
    (∀ s : Subscription, s.IsAccepted → ClockTime.inRange s.createdAt.micros →
      w.store.tables.subscription? s.subscriptionId = none →
      ∃ v, Engine.saveSubscription s w = (.ok (), v) ∧
        v.store.tables.columns = w.store.tables.columns.saveSubscription s.columns ∧
        Subscription.ReadsBack { s with createdAt := .utc s.createdAt.micros } v ∧
        ∀ (u : World) (last : Subscription), v.store.Strays u.store → last.IsAccepted →
          last.subscriptionId = s.subscriptionId →
          ∃ u', Engine.saveSubscription last u = (.ok (), u') ∧
            u'.store.tables.columns = u.store.tables.columns.saveSubscription last.columns ∧
            Subscription.ReadsBack { last with
              applicationId := s.applicationId, createdAt := .utc s.createdAt.micros } u') ∧
    (∀ (claimed : Attempt) (token : ClaimToken) (r : Response) (now : Int) (retryAt : Option Int),
      r.IsAccepted → r.HasTextHeaders → r.IsStorable → ClockTime.inRange r.createdAt.micros →
      w.store.tables.response? r.responseId = none →
      (w.store.tables.attempt? r.attemptId).isSome → claimed.token? = some token →
      w.store.tables.attempts.any token.holds = true →
      ∃ v, Engine.finalize claimed r now retryAt w = (.ok true, v) ∧
        w.store.tables.columns.insertResponse r.columns = .ok v.store.tables.columns ∧
        Response.ReadsBack { r with createdAt := .utc r.createdAt.micros } v) ∧
    (∀ t : ClockTime, (ClockTime.utc t.micros).micros = t.micros ∧
      (t.offset = none → ClockTime.utc t.micros = ⟨t.reading, some 0⟩)) ∧
    (∀ (j : Json) (id : Uuid) (now : Int), j.IsProper →
      (∀ e, Event.read now j = .ok e → e.IsAccepted) ∧
      (∀ s, Subscription.read id now j = .valid s → s.IsAccepted) ∧
      (∀ r, Response.read id now j = .valid r → r.IsAccepted)) := by
  have hw := h.isCoherent (Store.isCoherent_create onFile)
  have hl := hw.indexed.lost
  refine ⟨fun e he dated new => Event.readsBack_insertEvent hw he dated new,
    fun s hs created new => ?_,
    fun claimed token r now retryAt hr texts storable created new there picked held =>
      Response.readsBack_finalize hw hr texts storable created new there picked held now retryAt,
    fun t => ⟨ClockTime.micros_utc _, fun naive => ?_⟩,
    fun j id now hj => ⟨fun _ => Event.isAccepted_of_read hj,
      fun _ => Subscription.isAccepted_of_read hj, fun _ => Response.isAccepted_of_read hj⟩⟩
  · exact ⟨_, Engine.saveSubscription_apply hw.idle hl s,
      w.store.tables.columns_saveSubscription s,
      Subscription.readsBack_saveSubscription hw hs created
        (Tables.subscription?_saveSubscription_of_new new), fun u last hu hlast hid =>
        Subscription.readsBack_of_strays hw created new hu hlast hid⟩
  · obtain ⟨reading, offset⟩ := t
    obtain rfl : offset = none := naive
    simp [ClockTime.utc, ClockTime.micros]

namespace Sample

/-- An event like the one that is there, with a payload that is no text. -/
def arrival : Event := { event with eventId := .ofNat 4, payload := [255, 0] }

/-- A subscription whose time of creation has no offset. -/
def undated : Subscription :=
  { scheduled with
    subscriptionId := .ofNat 5, secret := "na\u00efve \"secret\"", createdAt := ⟨5, none⟩ }

/-- The same subscription, saved once more for another application. -/
def moved : Subscription :=
  { undated with applicationId := .ofNat 9, isEnabled := false, createdAt := .utc 7 }

def answered : Response :=
  { response 14 none with
    httpCode := some 200, headers := some [("content-type", .str "text/plain")], body := some "" }

/-- A document of a response. -/
def document : Json :=
  .obj [("request_attempt_id", .str (Uuid.ofNat 6).write),
    ("application_id", .str application.write), ("elapsed_time_ms", .int 12)]

theorem isAccepted_scheduled : scheduled.IsAccepted where
  eventTypes := by decide
  sorted := by decide
  labelKey := by decide
  labelValue := by decide
  target := ⟨by decide, by decide, by decide, by decide⟩
  secret := by decide
  workers := by decide
  schedule := by
    rintro _ ⟨⟩
    exact ⟨by decide, by decide, by decide⟩

end Sample

open Sample in
/-- Where an attempt is claimed, an event, a subscription, which is then saved for another
application, and the response of the claim are stored, and all are read back. -/
theorem stalled_store_keeps_records : (Store.create true).Strays stalled.store ∧
    (∃ v, Engine.insertEvent arrival stalled = (.ok true, v) ∧ arrival.ReadsBack v) ∧
    (∃ v v', Engine.saveSubscription undated stalled = (.ok (), v) ∧
      Subscription.ReadsBack { undated with createdAt := .utc 5 } v ∧
      Engine.saveSubscription moved v = (.ok (), v') ∧
      Subscription.ReadsBack { undated with isEnabled := false, createdAt := .utc 5 } v') ∧
    (∃ v, Engine.finalize (claimOf 10000000 0 0 none).attempt answered 20000000 none stalled =
      (.ok true, v) ∧ answered.ReadsBack v) ∧
    ∃ r, Response.read (.ofNat 14) 0 document = .valid r ∧ r.IsAccepted := by
  have h : (Store.create true).Strays stalled.store :=
    (Store.leads_runAll world beginScheduled).strays
  have haccepted := isAccepted_scheduled
  have hundated : undated.IsAccepted := { haccepted with secret := by decide }
  have hmoved : moved.IsAccepted := { hundated with }
  obtain ⟨hevents, hsubscriptions, hresponses, -, hread⟩ := records_survive_storage h
  refine ⟨h, ?_, ?_, ?_, ?_⟩
  · obtain ⟨v, hrun, -, hback⟩ :=
      hevents arrival ⟨by decide, by decide, by decide, by decide⟩ rfl rfl
    exact ⟨v, hrun, hback⟩
  · obtain ⟨v, hrun, -, hback, hlast⟩ := hsubscriptions undated hundated (by decide) rfl
    obtain ⟨v', hrun', -, hback'⟩ := hlast v moved .refl hmoved rfl
    exact ⟨v, v', hrun, hback, hrun', hback'⟩
  · have hrules : answered.IsAccepted := ⟨by decide, by rintro _ ⟨⟩; decide⟩
    have htexts : answered.HasTextHeaders := by
      rintro _ ⟨⟩ x hx
      exact ⟨_, congrArg Prod.snd (List.mem_singleton.mp hx)⟩
    have hstorable : answered.IsStorable :=
      ⟨by rintro _ ⟨⟩; constructor <;> decide, by constructor <;> decide⟩
    obtain ⟨v, hrun, -, hback⟩ := hresponses (claimOf 10000000 0 0 none).attempt
      ⟨world.ids.next .attempt, 10000000, some claimant.name⟩ answered 20000000 none
      hrules htexts hstorable (by decide) rfl rfl rfl rfl
    exact ⟨v, hrun, hback⟩
  · refine ⟨_, rfl, (hread document (.ofNat 14) 0 ?_).2.2 _ rfl⟩
    refine .obj _ (by decide) ?_
    rw [List.forall_mem_cons, List.forall_mem_cons, List.forall_mem_cons]
    exact ⟨.str _, .str _, .int _, fun _ hm => absurd hm List.not_mem_nil⟩

end WebhookDelivery
