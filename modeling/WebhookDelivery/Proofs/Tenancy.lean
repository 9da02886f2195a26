import WebhookDelivery.Proofs.FirstDispatch
import WebhookDelivery.Proofs.Locality

/-!
# WebhookDelivery.Proofs.Tenancy

What belongs to an application.

* `Tables.OwnsEvent`: no other application has an event of an identifier.
* `Tables.event?_ofApplication` and the lemmas beside it: what is asked for an application depends on
  its rows alone.
* `Tables.insertEvent_ofApplication` and the lemmas beside it: what is written for an application shows
  among its rows, and not among those of others.
* `TenantRequest`: what is asked for an application. `TenantRequest.ofApplication_of_ne` says that it
  leaves the rows of others alone, and `TenantRequest.isOf` that it gives none of them away.
-/

namespace WebhookDelivery

section Rows

variable {α : Type} {rows : List α} {p q : α → Bool}

theorem filter_filter_of_imp (h : ∀ x ∈ rows, p x → q x) :
    (rows.filter q).filter p = rows.filter p := by
  rw [List.filter_filter]
  refine List.filter_congr fun x hx => ?_
  cases hp : p x with
  | false => rfl
  | true => simp [h x hx hp]

theorem find?_filter_of_imp (h : ∀ x ∈ rows, p x → q x) : (rows.filter q).find? p = rows.find? p := by
  rw [← List.head?_filter, ← List.head?_filter, filter_filter_of_imp h]

theorem any_filter_of_imp (h : ∀ x ∈ rows, p x → q x) : (rows.filter q).any p = rows.any p := by
  rw [Bool.eq_iff_iff, List.any_eq_true, List.any_eq_true]
  constructor
  · rintro ⟨x, hx, hp⟩
    exact ⟨x, (List.mem_filter.mp hx).1, hp⟩
  · rintro ⟨x, hx, hp⟩
    exact ⟨x, List.mem_filter.mpr ⟨hx, h x hx hp⟩, hp⟩

theorem inScope_find?_eq_some {f owner : α → Uuid} {application id : Uuid} {x : α}
    (h : (rows.map f).Nodup) :
    Engine.inScope (some application) owner (rows.find? (f · == id)) = some x ↔
      x ∈ rows ∧ f x = id ∧ owner x = application := by
  constructor
  · intro hx
    obtain ⟨hf, ho⟩ := Data.mem_of_inScope hx
    exact ⟨List.mem_of_find?_eq_some hf, by simpa using List.find?_some hf, ho⟩
  · rintro ⟨hx, rfl, rfl⟩
    rw [Tables.find?_eq_some_of_nodup h hx]
    simp [Engine.inScope]

/-- The row of an identifier, in the scope of an application, is found among its rows. -/
theorem inScope_find?_filter {f owner : α → Uuid} (h : (rows.map f).Nodup) (application id : Uuid) :
    Engine.inScope (some application) owner
      ((rows.filter (owner · == application)).find? (f · == id)) =
    Engine.inScope (some application) owner (rows.find? (f · == id)) := by
  have hown : ((rows.filter (owner · == application)).map f).Nodup :=
    h.sublist (List.filter_sublist.map f)
  refine Option.ext fun x => ?_
  rw [inScope_find?_eq_some hown, inScope_find?_eq_some h, List.mem_filter, beq_iff_eq]
  constructor
  · rintro ⟨⟨hx, -⟩, hid, ho⟩
    exact ⟨hx, hid, ho⟩
  · rintro ⟨hx, hid, ho⟩
    exact ⟨⟨hx, ho⟩, hid, ho⟩

end Rows

/-- Both rows are of one event if they have one key. -/
theorem AttemptRow.eventId_of_dispatchKey {r r' : AttemptRow} (h : r.IsInitial ∨ r.IsReplay)
    (h' : r'.IsInitial ∨ r'.IsReplay) (hk : r.dispatchKey = r'.dispatchKey) :
    r.eventId = r'.eventId := by
  have htext : ∀ {r : AttemptRow}, r.IsInitial ∨ r.IsReplay →
      ∃ rest, r.dispatchKey.toList = r.eventId.toList ++ rest := by
    rintro r (hi | ⟨draw, hr⟩)
    · rw [hi, DispatchKey.toList_initial]
      exact ⟨_, rfl⟩
    · rw [hr, DispatchKey.toList_replay]
      exact ⟨_, rfl⟩
  obtain ⟨rest, ht⟩ := htext h
  obtain ⟨rest', ht'⟩ := htext h'
  rw [hk, ht'] at ht
  have hlength : r'.eventId.toList.length = r.eventId.toList.length := by
    rw [Uuid.length_toList, Uuid.length_toList]
  exact (Uuid.toList_injective (List.append_inj ht hlength).1).symm

/-- Records are of the applications of which their rows are. -/
theorem AttemptRow.applicationId_of_forall₂ {application : Uuid} {rows : List AttemptRow}
    {found : List Attempt} (h : List.Forall₂ (fun r a => r.read = .ok a) rows found)
    (hown : ∀ r ∈ rows, r.applicationId = application) :
    ∀ a ∈ found, a.applicationId = application := by
  induction h with
  | nil => exact fun a ha => absurd ha List.not_mem_nil
  | cons hread _ ih =>
    rw [List.forall_mem_cons] at hown ⊢
    exact ⟨(AttemptRow.read_eq_ok hread).2.1.trans hown.1, ih hown.2⟩

namespace Tables

variable {t : Tables} {application : Uuid}

/-- No other application has an event of the identifier. -/
def OwnsEvent (t : Tables) (application id : Uuid) : Prop :=
  ∀ e ∈ t.events, e.eventId = id → e.applicationId = application

theorem ofApplication_congr {u : Tables}
    (events : (t.ofApplication application).events = (u.ofApplication application).events)
    (subscriptions : (t.ofApplication application).subscriptions =
      (u.ofApplication application).subscriptions)
    (attempts : (t.ofApplication application).attempts = (u.ofApplication application).attempts)
    (responses : (t.ofApplication application).responses = (u.ofApplication application).responses)
    (lost : t.lost = u.lost) (referencesUnchecked : t.referencesUnchecked = u.referencesUnchecked) :
    t.ofApplication application = u.ofApplication application := by
  unfold Tables.ofApplication at *
  dsimp only at *
  rw [events, subscriptions, attempts, responses, lost, referencesUnchecked]

theorem OwnsEvent.attempts {id : Uuid} (h : t.OwnsEvent application id) (hs : t.Sound) :
    ∀ r ∈ t.attempts, r.eventId = id → r.applicationId = application := by
  intro r hr hid
  obtain ⟨e, he, hei, hea⟩ := (hs.places r hr).event
  exact hea.symm.trans (h e he (hei.trans hid))

theorem ownsEvent_of_event? (hc : t.Catalogued) {e : Event} {id : Uuid} (h : t.event? id = some e)
    (ha : e.applicationId = application) : t.OwnsEvent application id := by
  obtain ⟨he, hid⟩ := Data.mem_of_event? h
  intro f hf hfid
  rw [List.inj_on_of_nodup_map hc.eventIds hf he (hfid.trans hid.symm)]
  exact ha

theorem Places.ofApplication {event subscription : Uuid}
    (h : t.Places application event subscription) :
    (t.ofApplication application).Places application event subscription := by
  obtain ⟨e, he, hei, hea⟩ := h.event
  obtain ⟨s, hs, hsi, hsa⟩ := h.subscription
  exact ⟨⟨e, List.mem_filter.mpr ⟨he, beq_iff_eq.mpr hea⟩, hei, hea⟩,
    ⟨s, List.mem_filter.mpr ⟨hs, beq_iff_eq.mpr hsa⟩, hsi, hsa⟩⟩

/-! ## Queries -/

theorem event?_ofApplication {id : Uuid} (h : t.OwnsEvent application id) :
    (t.ofApplication application).event? id = t.event? id :=
  find?_filter_of_imp fun e he hid => beq_iff_eq.mpr (h e he (beq_iff_eq.mp hid))

theorem subscriptionsOf_ofApplication (enabledOnly : Bool) :
    (t.ofApplication application).subscriptionsOf application enabledOnly =
      t.subscriptionsOf application enabledOnly := by
  unfold subscriptionsOf
  refine congrArg (List.mergeSort · _) (filter_filter_of_imp fun s _ h => ?_)
  exact (Bool.and_eq_true_iff.mp h).1

theorem openAttempt?_ofApplication {event : Uuid} (h : t.OwnsEvent application event)
    (hs : t.Sound) (subscription : Uuid) :
    (t.ofApplication application).openAttempt? event subscription =
      t.openAttempt? event subscription := by
  unfold openAttempt?
  refine congrArg (least? _) (filter_filter_of_imp fun r hr hp => ?_)
  simp only [Bool.and_eq_true, beq_iff_eq] at hp
  exact beq_iff_eq.mpr (h.attempts hs r hr hp.1.1)

theorem attemptsOf_ofApplication (f : AttemptFilter) (now limit offset : Int) :
    (t.ofApplication application).attemptsOf application f now limit offset =
      t.attemptsOf application f now limit offset := by
  unfold attemptsOf
  refine congrArg (fun rows : List AttemptRow =>
    limited limit ((rows.mergeSort AttemptRow.listsBefore).drop offset.toNat)) ?_
  exact filter_filter_of_imp fun r _ h => (Bool.and_eq_true_iff.mp h).1

theorem countOf_ofApplication (now : Int) (status : AttemptStatus) :
    (t.ofApplication application).countOf application now status =
      t.countOf application now status := by
  exact congrArg (fun rows : List AttemptRow =>
    (Truth.sum (rows.map (·.countsAs now status))).getD 0) (filter_filter_of_imp fun _ _ h => h)

theorem mem_attemptsOf {f : AttemptFilter} {now limit offset : Int} {r : AttemptRow}
    (h : r ∈ t.attemptsOf application f now limit offset) : r.applicationId = application := by
  have hr := List.mem_mergeSort.mp (List.mem_of_mem_drop (mem_of_mem_limited h))
  simp only [List.mem_filter, Bool.and_eq_true, beq_iff_eq] at hr
  exact hr.2.1

/-! ## Statements -/

theorem insertEvent_ofApplication {e : Event} (ha : e.applicationId = application)
    (h : t.OwnsEvent application e.eventId) :
    (t.ofApplication application).insertEvent e =
      ((t.insertEvent e).1, (t.insertEvent e).2.ofApplication application) := by
  unfold insertEvent
  rw [event?_ofApplication h]
  split
  · rfl
  · simp [Tables.ofApplication, ha]

theorem insertEvent_ofApplication_of_ne {e : Event} (h : e.applicationId ≠ application) :
    (t.insertEvent e).2.ofApplication application = t.ofApplication application := by
  unfold insertEvent
  split
  · rfl
  · simp [Tables.ofApplication, h]

theorem offer_ofApplication {r : AttemptRow} (ha : r.applicationId = application)
    (h : (t.ofApplication application).isTaken r = t.isTaken r) :
    (t.ofApplication application).offer r = (t.offer r).ofApplication application := by
  unfold offer
  rw [h]
  split
  · rfl
  · simp [Tables.ofApplication, ha]

theorem offer_ofApplication_of_ne {r : AttemptRow} (h : r.applicationId ≠ application) :
    (t.offer r).ofApplication application = t.ofApplication application := by
  unfold offer
  split
  · rfl
  · simp [Tables.ofApplication, h]

theorem filter_updateRows {α : Type} {rows : List α} {select : α → Bool} (keep : α → Bool)
    {change : α → α} (h : ∀ x, keep (change x) = keep x) :
    (updateRows select change rows).filter keep = updateRows select change (rows.filter keep) := by
  have hk : ∀ x, keep (if select x then change x else x) = keep x := by
    intro x
    split
    · exact h x
    · rfl
  unfold updateRows
  rw [List.filter_map]
  exact congrArg _ (List.filter_congr fun x _ => hk x)

/-- Events are marked among the rows of their application. -/
theorem ofApplication_markDispatched (application id : Uuid) (time : Int) :
    (t.markDispatched id time).2.ofApplication application =
      ((t.ofApplication application).markDispatched id time).2 := by
  unfold markDispatched Tables.ofApplication
  dsimp only
  rw [filter_updateRows fun e : Event => e.applicationId == application]
  exact fun _ => rfl

theorem markDispatched_ofApplication {id : Uuid} (h : t.OwnsEvent application id) (time : Int) :
    (t.ofApplication application).markDispatched id time =
      ((t.markDispatched id time).1, (t.markDispatched id time).2.ofApplication application) := by
  refine Prod.ext (any_filter_of_imp fun e he hsel => ?_)
    (t.ofApplication_markDispatched application id time).symm
  simp only [Bool.and_eq_true, beq_iff_eq] at hsel
  exact beq_iff_eq.mpr (h e he hsel.1)

theorem markDispatched_ofApplication_of_ne {owner id : Uuid} (h : t.OwnsEvent owner id)
    (hne : owner ≠ application) (time : Int) :
    (t.markDispatched id time).2.ofApplication application = t.ofApplication application := by
  have hnone : (t.ofApplication application).events.any
      (fun e => e.eventId == id && e.dispatchedAt.isNone) = false := by
    rw [List.any_eq_false]
    intro e he hsel
    obtain ⟨he, ha⟩ := List.mem_filter.mp he
    simp only [Bool.and_eq_true, beq_iff_eq] at ha hsel
    exact hne ((h e he hsel.1).symm.trans ha)
  rw [ofApplication_markDispatched]
  unfold markDispatched
  dsimp only
  rw [updateRows_eq_self hnone]

theorem OwnsEvent.insertEvent {e : Event} (h : t.OwnsEvent application e.eventId)
    (ha : e.applicationId = application) :
    (t.insertEvent e).2.OwnsEvent application e.eventId := by
  unfold Tables.insertEvent
  split
  · exact h
  · intro f hf hid
    rcases List.mem_append.mp hf with hf | hf
    · exact h f hf hid
    · rw [List.mem_singleton.mp hf]
      exact ha

end Tables

/-! ## Dispatch and replay -/

namespace Data

variable {d : Data} {e : Event} {application other : Uuid}

theorem applicationId_asStored (ha : e.applicationId = application)
    (ho : d.tables.OwnsEvent application e.eventId) : (d.asStored e).applicationId = application := by
  unfold asStored
  cases he : d.tables.event? e.eventId with
  | none => exact ha
  | some stored =>
    obtain ⟨hm, hid⟩ := mem_of_event? he
    exact ho stored hm hid

theorem foldl_ofApplication {f : Data → Subscription → Data}
    (hf : ∀ d s, (f d s).tables.ofApplication other = d.tables.ofApplication other)
    (targets : List Subscription) (d : Data) :
    (targets.foldl f d).tables.ofApplication other = d.tables.ofApplication other := by
  induction targets generalizing d with
  | nil => rfl
  | cons s rest ih => exact (ih (f d s)).trans (hf d s)

theorem fanOut_ofApplication_of_ne (ha : e.applicationId = application)
    (ho : d.tables.OwnsEvent application e.eventId) (hne : application ≠ other) (now : Int) :
    (d.fanOut e now).tables.ofApplication other = d.tables.ofApplication other := by
  have hfold : ((d.receivers e).foldl (dispatchTo e now) d).tables.ofApplication other =
      d.tables.ofApplication other :=
    foldl_ofApplication (fun d s => Tables.offer_ofApplication_of_ne (ha.trans_ne hne)) _ d
  obtain ⟨hevents, -⟩ := dispatched_attempts e now (d.receivers e) d
  unfold Tables.OwnsEvent at ho
  rw [← hevents] at ho
  exact (Tables.markDispatched_ofApplication_of_ne ho hne now).trans hfold

theorem ingest_ofApplication_of_ne (ha : e.applicationId = application)
    (ho : d.tables.OwnsEvent application e.eventId) (hne : application ≠ other) (now : Int) :
    (d.ingest e now).tables.ofApplication other = d.tables.ofApplication other := by
  rcases d.ingest_cases e now with h | h
  · rw [h]
  · have hown : (d.insertEvent e).tables.OwnsEvent application (d.asStored e).eventId := by
      rw [eventId_asStored]
      exact ho.insertEvent ha
    rw [h, fanOut_ofApplication_of_ne (applicationId_asStored ha ho) hown hne]
    exact Tables.insertEvent_ofApplication_of_ne (ha.trans_ne hne)

/-- What a submission adds is of the application that submits. -/
theorem applicationId_of_ingest (ha : e.applicationId = application)
    (ho : d.tables.OwnsEvent application e.eventId) {now : Int} {new : List AttemptRow}
    (h : (d.ingest e now).tables.attempts = d.tables.attempts ++ new) :
    ∀ r ∈ new, r.applicationId = application := by
  rcases d.ingest_cases e now with hd | hd
  · rw [hd] at h
    rw [List.append_right_eq_self.mp h.symm]
    exact fun _ hr => absurd hr List.not_mem_nil
  · obtain ⟨-, new', hrows, hnew⟩ := dispatched_attempts (d.asStored e) now
      ((d.insertEvent e).receivers (d.asStored e)) (d.insertEvent e)
    rw [(d.insertEvent_frame e).1] at hrows
    rw [hd] at h
    obtain rfl := List.append_cancel_left (h.symm.trans hrows)
    intro r hr
    obtain ⟨_, -, hdispatch⟩ := hnew r hr
    exact hdispatch.applicationId.trans (applicationId_asStored ha ho)

theorem replayTo_ofApplication_of_ne (hne : application ≠ other) (eventId : Uuid) (now : Int)
    (d : Data) (s : Subscription) :
    (d.replayTo eventId application now s).tables.ofApplication other =
      d.tables.ofApplication other := by
  unfold replayTo
  split
  · rfl
  · exact Tables.offer_ofApplication_of_ne hne

theorem replayTo_owned {eventId : Uuid} (h : ∀ r ∈ d.tables.attempts, r.eventId = eventId →
      r.applicationId = application) (now : Int) (s : Subscription) :
    ∀ r ∈ (d.replayTo eventId application now s).tables.attempts, r.eventId = eventId →
      r.applicationId = application := by
  unfold replayTo
  split
  · exact h
  · intro r hr hid
    rcases d.tables.offer_attempts (.new (d.replayAttempt eventId application now s)
      (DispatchKey.replay eventId s.subscriptionId (d.ids.next .replay)).write) with ha | ha
    · exact h r (ha ▸ hr) hid
    · dsimp only at hr
      rw [ha] at hr
      rcases List.mem_append.mp hr with hr | hr
      · exact h r hr hid
      · rw [List.mem_singleton.mp hr]
        rfl

end Data

namespace Engine

/-- A replay answers with attempts of the application, found or new. -/
theorem meets_replay_applicationId (eventId application : Uuid) (subscription : Option Uuid)
    (now : Int) :
    Meets (replay eventId application subscription now) fun d attempts _ => d.tables.Intact →
      ∀ a ∈ attempts, a.applicationId = application := by
  have hall : ∀ targets : List Subscription,
      Meets (targets.mapM (replayTo eventId application now)) fun d attempts _ =>
        (∀ r ∈ d.tables.attempts, r.eventId = eventId → r.applicationId = application) →
        ∀ a ∈ attempts, a.applicationId = application := by
    intro targets
    induction targets with
    | nil =>
      refine (Meets.pure []).mono ?_
      rintro d attempts d' ⟨rfl, -⟩ _ a ha
      cases ha
    | cons s rest ih =>
      rw [List.mapM_cons]
      refine ((meets_replayTo _ _ _ s).bind fun a => ih.bind fun more => .pure (a :: more)).mono ?_
      rintro d attempts d' ⟨a, _, ⟨rfl, hnew, hold⟩, more, _, hmore, rfl, -⟩ hd
      refine List.forall_mem_cons.mpr ⟨?_, hmore (Data.replayTo_owned hd now s)⟩
      cases ho : d.tables.openAttempt? eventId s.subscriptionId with
      | none =>
        rw [hnew ho]
        rfl
      | some r =>
        have hr := List.mem_filter.mp (Tables.mem_of_least? ho)
        simp only [Bool.and_eq_true, beq_iff_eq] at hr
        obtain ⟨-, happ, -⟩ := AttemptRow.read_eq_ok (hold r ho)
        exact happ.trans (hd r hr.1 hr.2.1.1)
  unfold replay
  refine ((Meets.atomically ((meets_getEvent _ _).bind (q := fun found d attempts _ =>
    (∀ e, found = some e → ∀ r ∈ d.tables.attempts, r.eventId = eventId →
      r.applicationId = application) → ∀ a ∈ attempts, a.applicationId = application)
      fun found => ?_)).bind (q := fun attempts _ answer _ => answer = attempts)
        fun attempts => ?_).mono ?_
  · cases found with
    | none => exact .throw _ _
    | some e =>
      refine ((meets_replayTargets _ _ _).bind fun targets => hall targets).mono ?_
      rintro _ attempts d' ⟨targets, d, ⟨-, rfl⟩, h⟩ hd
      exact h (hd e rfl)
  · refine ((meets_log _ _ _ _).bind fun _ => .pure attempts).mono ?_
    rintro _ x d' ⟨_, d, rfl, rfl, rfl⟩
    rfl
  · rintro _ _ d' ⟨attempts, _, ⟨_, d, ⟨rfl, rfl⟩, h⟩, rfl⟩ hd
    refine h fun e he => ?_
    obtain ⟨hf, ha⟩ := Data.mem_of_inScope he
    exact (Tables.ownsEvent_of_event? hd.catalogued hf ha).attempts hd.sound

theorem meets_readResponse (r : Response) :
    Meets (readResponse r) fun d x d' => x = r ∧ d' = d := by
  refine (meets_ofExcept _ _).mono ?_
  rintro d x d' ⟨h, rfl⟩
  unfold Response.readRow at h
  split at h <;> cases h
  exact ⟨rfl, rfl⟩

theorem meets_getResponse (id : Uuid) (application : Option Uuid) :
    Meets (getResponse id application) fun d x d' =>
      x = inScope application Response.applicationId (d.tables.response? id) ∧ d' = d := by
  refine ((meets_query .response _).bind fun row => meets_readRow meets_readResponse row).mono ?_
  rintro d x d' ⟨_, _, ⟨rfl, rfl⟩, rfl, rfl⟩
  exact ⟨rfl, rfl⟩

theorem meets_listAttempts (application : Uuid) (filter : AttemptFilter) (now limit offset : Int) :
    Meets (listAttempts application filter now limit offset) fun d attempts d' =>
      List.Forall₂ (fun (r : AttemptRow) a => r.read = .ok a)
        (d.tables.attemptsOf application filter now limit offset) attempts ∧ d' = d := by
  refine ((Meets.atomically ((meets_touch _).bind fun _ => (meets_checkInteger _).bind fun _ =>
    (meets_checkInteger _).bind fun _ => meets_tables.bind fun t =>
      .pure (t.attemptsOf application filter now limit offset))).bind fun rows =>
    meets_mapM (p := fun _ (r : AttemptRow) a => r.read = .ok a) meets_readAttempt rows).mono ?_
  rintro d attempts d' ⟨_, _, ⟨_, _, rfl, _, _, rfl, _, _, rfl, _, _, ⟨rfl, rfl⟩, rfl, rfl⟩, h, rfl⟩
  exact ⟨h, rfl⟩

end Engine

/-! ## Requests -/

/-- What is asked for an application. -/
inductive TenantRequest where
  | ingest (e : Event) (now : Int)
  | replay (eventId : Uuid) (subscription : Option Uuid) (now : Int)
  | attempts (filter : AttemptFilter) (now limit offset : Int)
  | stats (now : Int)
  | response (id : Uuid)

inductive TenantAnswer where
  | attempts (attempts : List Attempt)
  | stats (stats : AttemptStats)
  | response (response : Option Response)

/-- The records in the answer are of the application. -/
def TenantAnswer.IsOf (application : Uuid) : TenantAnswer → Prop
  | attempts found => ∀ a ∈ found, a.applicationId = application
  | stats _ => True
  | response found => ∀ r, found = some r → r.applicationId = application

namespace TenantRequest

def run (application : Uuid) : TenantRequest → Engine TenantAnswer
  | ingest e now => .attempts <$> Engine.ingest e now
  | replay eventId subscription now =>
    .attempts <$> Engine.replay eventId application subscription now
  | attempts filter now limit offset =>
    .attempts <$> Engine.listAttempts application filter now limit offset
  | stats now => .stats <$> Engine.attemptStats application now
  | response id => .response <$> Engine.getResponse id (some application)

/-- The request draws identifiers for what it creates. -/
def draws : TenantRequest → Bool
  | ingest .. | replay .. => true
  | _ => false

/-- An event that is submitted is of the application, and no other application has one of its
identifier. -/
def IsOf (application : Uuid) (t : Tables) : TenantRequest → Prop
  | ingest e _ => e.applicationId = application ∧ t.OwnsEvent application e.eventId
  | _ => True

variable {q : TenantRequest} {application other : Uuid} {w : World}

/-- The request asks a question and changes nothing. -/
theorem store_of_query {α : Type} {body : Engine α} (f : α → TenantAnswer) (query : Query)
    (h : query.run = (fun _ => ()) <$> body) (w : World) : ((f <$> body) w).2.store = w.store := by
  have hk := query.keeps_run w
  rw [h, Engine.store_map] at hk
  rw [Engine.store_map, hk]

theorem ofApplication_of_ne (hi : w.store.IsIdle) (hq : q.IsOf application w.store.tables)
    (hne : application ≠ other) :
    (q.run application w).2.store.tables.ofApplication other =
      w.store.tables.ofApplication other := by
  cases q with
  | ingest e now =>
    have hx : ((ingest e now).run application w).2.store = (Call.mk (.ingest e now) w).after :=
      (Engine.store_map _ _ w).trans (Engine.store_map Answer.attempts _ w).symm
    rw [hx]
    cases ha : (Call.mk (.ingest e now) w).answer with
    | error err =>
      exact congrArg (·.ofApplication other)
        (Call.tables_of_error (x := ⟨.ingest e now, w⟩) hi ha)
    | ok a =>
      rw [Call.tables_of_ingest rfl ha]
      exact Data.ingest_ofApplication_of_ne (d := w.data) hq.1 hq.2 hne now
  | replay eventId subscription now =>
    have hx : ((replay eventId subscription now).run application w).2.store =
        (Call.mk (.replay eventId application subscription now) w).after :=
      (Engine.store_map _ _ w).trans (Engine.store_map Answer.attempts _ w).symm
    rw [hx]
    cases ha : (Call.mk (.replay eventId application subscription now) w).answer with
    | error err =>
      exact congrArg (·.ofApplication other)
        (Call.tables_of_error (x := ⟨.replay eventId application subscription now, w⟩) hi ha)
    | ok a =>
      obtain ⟨e, targets, -, -, ht⟩ := Call.tables_of_replay rfl ha
      rw [ht]
      exact Data.foldl_ofApplication (Data.replayTo_ofApplication_of_ne hne eventId now)
        targets w.data
  | attempts filter now limit offset =>
    rw [run, store_of_query _ (.attempts application filter now limit offset) rfl]
  | stats now => rw [run, store_of_query _ (.stats application now) rfl]
  | response id => rw [run, store_of_query _ (.response id (some application)) rfl]

theorem isOf (ht : w.store.tables.Intact) (hq : q.IsOf application w.store.tables)
    {a : TenantAnswer} (h : (q.run application w).1 = .ok a) : a.IsOf application := by
  cases q with
  | ingest e now =>
    obtain ⟨created, ⟨hd, hrows⟩, rfl⟩ := ((Engine.meets_ingest e now).map _ w).2 a h
    intro c hc
    rw [hd] at hrows
    exact Data.applicationId_of_ingest hq.1 hq.2 hrows (Data.initialRow c)
      (List.mem_map_of_mem hc)
  | replay eventId subscription now =>
    obtain ⟨found, hfound, rfl⟩ :=
      ((Engine.meets_replay_applicationId eventId application subscription now).map _ w).2 a h
    exact hfound ht
  | attempts filter now limit offset =>
    obtain ⟨found, ⟨hread, -⟩, rfl⟩ :=
      ((Engine.meets_listAttempts application filter now limit offset).map _ w).2 a h
    exact AttemptRow.applicationId_of_forall₂ hread fun r => Tables.mem_attemptsOf
  | stats now =>
    rw [run, Engine.map_apply] at h
    split at h <;> cases h
    trivial
  | response id =>
    obtain ⟨found, ⟨rfl, -⟩, rfl⟩ := ((Engine.meets_getResponse id (some application)).map _ w).2 a h
    intro r hr
    exact (Data.mem_of_inScope hr).2

end TenantRequest
end WebhookDelivery
