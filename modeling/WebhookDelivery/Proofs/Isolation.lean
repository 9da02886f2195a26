import WebhookDelivery.Proofs.Tenancy

/-!
# WebhookDelivery.Proofs.Isolation

Applications do not interfere with each other, except that they share the identifiers of events.

* `Data.IsFit`: what the engine relies on when it draws identifiers for an application.
* `isLocal_ingest`, `isLocal_replay` and the lemmas beside them: what is asked for an application gives
  the same wherever its rows are the same.
* `applications_do_not_interfere`: the result about all stores to which requests lead.
* `foreign_event_is_dispatched`: an event under the identifier of another application's event is taken
  for that one.
-/

namespace WebhookDelivery

namespace IdSupply

/-- Drawing identifiers of one kind does not use up those of another. -/
theorem upcoming_advance_of_ne (s : IdSupply) {drawn kind : IdKind} (h : drawn ≠ kind) (n : Nat) :
    (s.advance drawn).upcoming kind n = s.upcoming kind n := by
  have hnext : ∀ s : IdSupply, (s.advance drawn).next kind = s.next kind ∧
      (s.advance drawn).advance kind = (s.advance kind).advance drawn := by
    intro s
    cases drawn <;> cases kind <;> first | exact ⟨rfl, rfl⟩ | exact absurd rfl h
  induction n generalizing s with
  | zero => rfl
  | succ n ih => rw [upcoming, upcoming, (hnext s).1, (hnext s).2, ih]

theorem upcoming_sublist (s : IdSupply) (kind : IdKind) {m n : Nat} (h : m ≤ n) :
    (s.upcoming kind m).Sublist (s.upcoming kind n) := by
  induction m generalizing s n with
  | zero => exact List.nil_sublist _
  | succ m ih =>
    cases n with
    | zero => omega
    | succ n => exact (ih _ (by omega)).cons_cons _

end IdSupply

namespace Tables

variable {t : Tables} {application : Uuid}

/-- No other application has an attempt of the identifier. -/
def OwnsAttempt (t : Tables) (application id : Uuid) : Prop :=
  ∀ r ∈ t.attempts, r.attemptId = id → r.applicationId = application

/-- An attempt that is offered is taken among the rows of its application, or not at all. -/
theorem isTaken_ofApplication {r : AttemptRow} (hs : t.Sound)
    (keyed : ∀ r ∈ t.attempts, r.IsInitial ∨ r.IsReplay) (hr : r.IsInitial ∨ r.IsReplay)
    (he : t.OwnsEvent application r.eventId) (hi : t.OwnsAttempt application r.attemptId) :
    (t.ofApplication application).isTaken r = t.isTaken r := by
  refine any_filter_of_imp fun old ho htaken => beq_iff_eq.mpr ?_
  rcases Bool.or_eq_true_iff.mp htaken with hid | hkey
  · exact hi old ho (beq_iff_eq.mp hid)
  · exact he.attempts hs old ho
      (AttemptRow.eventId_of_dispatchKey (keyed old ho) hr (beq_iff_eq.mp hkey))

theorem insertAttempt_eq_offer {r : AttemptRow}
    (h : t.Places r.applicationId r.eventId r.subscriptionId) :
    t.insertAttempt r = .ok (!t.isTaken r, t.offer r) := by
  obtain ⟨e, he, hei, -⟩ := h.event
  obtain ⟨s, hs, hsi, -⟩ := h.subscription
  have hevent : (t.event? r.eventId).isSome := by
    rw [event?, List.find?_isSome]
    exact ⟨e, he, beq_iff_eq.mpr hei⟩
  have hsubscription : (t.subscription? r.subscriptionId).isSome := by
    rw [subscription?, List.find?_isSome]
    exact ⟨s, hs, beq_iff_eq.mpr hsi⟩
  unfold insertAttempt
  rw [← isTaken]
  unfold offer
  split
  · rename_i ht
    rw [ht]
    rfl
  · rename_i ht
    rw [Bool.not_eq_true] at ht
    simp [ht, Option.isNone_eq_false_iff.mpr hevent, Option.isNone_eq_false_iff.mpr hsubscription]

end Tables

namespace Data

/-- The identifiers of the attempts that come next belong to no attempt of another application. -/
def DrawsApart (d : Data) (application : Uuid) (n : Nat) : Prop :=
  ∀ id ∈ d.ids.upcoming .attempt n, d.tables.OwnsAttempt application id

/-- The data are in order for an application that draws the identifiers of some attempts. -/
structure IsFit (application : Uuid) (n : Nat) (d : Data) : Prop where
  intact : d.tables.Intact
  keyed : ∀ r ∈ d.tables.attempts, r.IsInitial ∨ r.IsReplay
  apart : d.DrawsApart application n

namespace IsFit

variable {d : Data} {application : Uuid} {m n : Nat}

theorem dangling (h : d.IsFit application n) : d.tables.dangling = [] := h.intact.answered.dangling

theorem mono (h : d.IsFit application n) (hm : m ≤ n) : d.IsFit application m :=
  { h with apart := fun id hid => h.apart id ((d.ids.upcoming_sublist .attempt hm).mem hid) }

theorem registers (h : d.IsFit application n) {t : Tables} (hr : d.tables.Registers t) :
    IsFit application n ⟨t, d.ids⟩ := by
  have hc : Tables.Change (fun _ => False) d.tables t := .edit (.register hr)
  refine ⟨hc.intact h.intact, ?_, fun id hid r hm => ?_⟩
  · rw [hr.attempts]
    exact h.keyed
  · rw [hr.attempts] at hm
    exact h.apart id hid r hm

theorem offer (h : d.IsFit application n) {r : AttemptRow} (fresh : r.IsFresh)
    (keyed : r.IsInitial ∨ r.IsReplay) (ha : r.applicationId = application)
    (places : d.tables.Places r.applicationId r.eventId r.subscriptionId) :
    IsFit application n ⟨d.tables.offer r, d.ids⟩ := by
  have hc : Tables.Change (fun _ => False) d.tables (d.tables.offer r) := .offer r fresh places
  have hrows : ∀ x ∈ (d.tables.offer r).attempts, x ∈ d.tables.attempts ∨ x = r := by
    intro x hx
    rcases d.tables.offer_attempts r with hsame | hadded
    · exact .inl (hsame ▸ hx)
    · rw [hadded] at hx
      exact (List.mem_append.mp hx).imp_right List.mem_singleton.mp
  refine ⟨hc.intact h.intact, fun x hx => ?_, fun id hid x hx hxi => ?_⟩
  · rcases hrows x hx with hx | rfl
    · exact h.keyed x hx
    · exact keyed
  · rcases hrows x hx with hx | rfl
    · exact h.apart id hid x hx hxi
    · exact ha

theorem draw (h : d.IsFit application (n + 1)) :
    IsFit application n ⟨d.tables, d.ids.advance .attempt⟩ ∧
      d.tables.OwnsAttempt application (d.ids.next .attempt) :=
  ⟨{ h with apart := fun id hid => h.apart id (List.mem_cons_of_mem _ hid) },
    h.apart _ List.mem_cons_self⟩

theorem drawReplay (h : d.IsFit application n) :
    IsFit application n ⟨d.tables, d.ids.advance .replay⟩ :=
  { h with apart := fun id hid => h.apart id (by
      rwa [IdSupply.upcoming_advance_of_ne _ (by decide)] at hid) }

end IsFit

/-- The data are fit for an attempt of an event of the application for each of its subscriptions. -/
structure Serves (application event : Uuid) (targets : List Subscription) (d : Data) : Prop where
  isFit : d.IsFit application targets.length
  owns : d.tables.OwnsEvent application event
  places : ∀ s ∈ targets, d.tables.Places application event s.subscriptionId

/-- The data are fit for what is asked for the application about an event. -/
structure Admits (application event : Uuid) (d : Data) : Prop where
  isFit : d.IsFit application (d.tables.ofApplication application).subscriptions.length
  owns : d.tables.OwnsEvent application event

theorem Serves.tail {d : Data} {application event : Uuid} {s : Subscription}
    {rest : List Subscription} (h : d.Serves application event (s :: rest)) :
    d.Serves application event rest :=
  ⟨h.isFit.mono (Nat.le_succ _), h.owns, fun x hx => h.places x (List.mem_cons_of_mem _ hx)⟩

theorem length_subscriptionsOf_le (t : Tables) (application : Uuid) (enabledOnly : Bool) :
    (t.subscriptionsOf application enabledOnly).length ≤
      (t.ofApplication application).subscriptions.length := by
  rw [← Tables.subscriptionsOf_ofApplication, Tables.subscriptionsOf, List.length_mergeSort]
  exact List.length_filter_le _ _

end Data

namespace Engine

variable {application : Uuid} {draws : Bool} {p : Data → Prop}

/-! ## Queries -/

theorem isLocal_getEvent {id : Uuid} {scope : Option Uuid} (hd : ∀ d, p d → d.tables.dangling = [])
    (hf : ∀ d, p d →
      inScope scope Event.applicationId ((d.tables.ofApplication application).event? id) =
        inScope scope Event.applicationId (d.tables.event? id)) :
    IsLocal application draws p (getEvent id scope) fun x d =>
      x = inScope scope Event.applicationId (d.tables.event? id) ∧ p d :=
  (isLocal_getRow hd hf).meets (meets_getEvent id scope)
    fun _ _ _ _ hp ⟨hx, hd⟩ => ⟨hd ▸ hx, hp⟩

theorem isLocal_getSubscription (hd : ∀ d, p d → d.tables.dangling = [])
    (hc : ∀ d, p d → d.tables.Catalogued) (id : Uuid) :
    IsLocal application draws p (getSubscription id (some application)) fun _ => p :=
  isLocal_getRow hd fun d h => inScope_find?_filter (hc d h).subscriptionIds application id

theorem isLocal_getResponse (hd : ∀ d, p d → d.tables.dangling = [])
    (hi : ∀ d, p d → d.tables.Indexed) (id : Uuid) :
    IsLocal application draws p (getResponse id (some application)) fun _ => p :=
  isLocal_getRow hd fun d h => inScope_find?_filter (hi d h).responseIds application id

theorem isLocal_findOpenAttempt {event : Uuid} (hd : ∀ d, p d → d.tables.dangling = [])
    (hs : ∀ d, p d → d.tables.Sound) (ho : ∀ d, p d → d.tables.OwnsEvent application event)
    (subscription : Uuid) :
    IsLocal application draws p (findOpenAttempt event subscription) fun _ => p :=
  isLocal_getRow hd fun d h => Tables.openAttempt?_ofApplication (ho d h) (hs d h) subscription

theorem isLocal_listSubscriptions (hd : ∀ d, p d → d.tables.dangling = []) (enabledOnly : Bool) :
    IsLocal application draws p (listSubscriptions application enabledOnly) fun x d =>
      x = d.tables.subscriptionsOf application enabledOnly ∧ p d :=
  ((isLocal_query hd fun _ _ => Tables.subscriptionsOf_ofApplication enabledOnly).bind fun rows =>
    .mapM (fun _ => isLocal_ofExcept _ _) rows).meets
    (meets_listSubscriptions application enabledOnly) fun _ _ _ _ hp ⟨hx, hd⟩ => ⟨hd ▸ hx, hp⟩

theorem isLocal_listAttempts (hd : ∀ d, p d → d.tables.dangling = []) (filter : AttemptFilter)
    (now limit offset : Int) :
    IsLocal application draws p (listAttempts application filter now limit offset) fun _ => p := by
  refine IsLocal.bind (IsLocal.atomically ?_ fun _ => hd) fun rows =>
    .mapM (fun _ => isLocal_ofExcept _ _) rows
  exact (isLocal_touch _).bind fun _ => (isLocal_checkInteger _).bind fun _ =>
    (isLocal_checkInteger _).bind fun _ => isLocal_read fun _ _ =>
      Tables.attemptsOf_ofApplication filter now limit offset

theorem isLocal_attemptStats (hd : ∀ d, p d → d.tables.dangling = []) (now : Int) :
    IsLocal application draws p (attemptStats application now) fun _ => p := by
  refine .atomically ((isLocal_touch _).bind fun _ => isLocal_read fun d _ => ?_) fun _ => hd
  simp only [Tables.countOf_ofApplication]

/-! ## Dispatch -/

theorem isLocal_insertEvent {e : Event} (ha : e.applicationId = application) :
    IsLocal application draws (Data.Admits application e.eventId) (insertEvent e) fun isNew d =>
      d.Admits application e.eventId ∧ (isNew → e ∈ d.tables.events) := by
  refine .atomically ((isLocal_touch _).bind fun _ => isLocal_change
    (fun d hd => Tables.insertEvent_ofApplication ha hd.owns) fun d hd => ⟨⟨?_, ?_⟩, ?_⟩)
    fun _ d hd => hd.1.isFit.dangling
  · have hsame : ((d.tables.insertEvent e).2.ofApplication application).subscriptions =
        (d.tables.ofApplication application).subscriptions := by
      unfold Tables.insertEvent
      split <;> rfl
    rw [hsame]
    exact hd.isFit.registers (Tables.registers_insertEvent d.tables e)
  · exact hd.owns.insertEvent ha
  · unfold Tables.insertEvent
    split
    · exact fun h => absurd h Bool.false_ne_true
    · exact fun _ => List.mem_append_right _ List.mem_cons_self

/-- The event that is found is of the application. -/
theorem isLocal_undispatchedEvent? {e : Event} (ha : e.applicationId = application) :
    IsLocal application draws (Data.Admits application e.eventId) (undispatchedEvent? e)
      fun found d => d.Admits application e.eventId ∧ ∀ f, found = some f → f.eventId = e.eventId ∧
        f.applicationId = application ∧ f ∈ d.tables.events := by
  refine (isLocal_insertEvent ha).bind fun isNew => ?_
  cases isNew with
  | true =>
    refine .pure _ fun d hd => ⟨hd.1, fun f hf => ?_⟩
    cases hf
    exact ⟨rfl, ha, hd.2 rfl⟩
  | false =>
    refine (isLocal_getEvent (fun d hd => hd.1.isFit.dangling) fun d hd => ?_).bind fun row => ?_
    · exact congrArg _ (Tables.event?_ofApplication hd.1.owns)
    · cases row with
      | none =>
        refine .pure _ fun d hd => ⟨hd.2.1, fun f hf => ?_⟩
        cases hf
      | some stored =>
        refine .pure _ fun d ⟨hrow, hd⟩ => ⟨hd.1, fun f hf => ?_⟩
        rw [inScope_none] at hrow
        obtain ⟨hm, hid⟩ := Data.mem_of_event? hrow.symm
        split at hf <;> cases hf
        exact ⟨hid, hd.1.owns _ hm hid, hm⟩

theorem isLocal_drawAttempt (event : Uuid) (s : Subscription) (rest : List Subscription) :
    IsLocal application true (Data.Serves application event (s :: rest)) (drawId .attempt) fun id d =>
      d.Serves application event rest ∧ d.tables.Places application event s.subscriptionId ∧
        d.tables.OwnsAttempt application id := by
  refine isLocal_drawId fun d hd => ?_
  obtain ⟨hfit, hid⟩ := hd.isFit.draw
  exact ⟨⟨hfit, hd.owns, hd.tail.places⟩, hd.places s List.mem_cons_self, hid⟩

/-- The rows of other applications do not stand in the way of a new attempt. -/
theorem isLocal_insertAttempt {event id : Uuid} {s : Subscription} {rest : List Subscription}
    {now due : Int} {key : String}
    (hkey : (AttemptRow.new (.new id application event s.subscriptionId now due) key).IsInitial ∨
      (AttemptRow.new (.new id application event s.subscriptionId now due) key).IsReplay) :
    IsLocal application draws (fun d => d.Serves application event rest ∧
        d.tables.Places application event s.subscriptionId ∧ d.tables.OwnsAttempt application id)
      (insertAttempt (.new id application event s.subscriptionId now due) key)
      fun _ => Data.Serves application event rest := by
  generalize hr : AttemptRow.new (.new id application event s.subscriptionId now due) key = r at hkey
  have hfresh : r.IsFresh := hr ▸ AttemptRow.isFresh_new ..
  have happ : r.applicationId = application := hr ▸ rfl
  have hevent : r.eventId = event := hr ▸ rfl
  have hsub : r.subscriptionId = s.subscriptionId := hr ▸ rfl
  have hattempt : r.attemptId = id := hr ▸ rfl
  unfold insertAttempt
  rw [hr]
  refine .atomically ((isLocal_touch _).bind fun _ => (isLocal_checkInteger _).bind fun _ =>
    isLocal_statement ?_) fun _ d hd => hd.isFit.dangling
  rintro d ⟨hd, hplaces, hid⟩
  have htaken : (d.tables.ofApplication application).isTaken r = d.tables.isTaken r :=
    Tables.isTaken_ofApplication hd.isFit.intact.sound hd.isFit.keyed hkey (hevent ▸ hd.owns)
      (hattempt ▸ hid)
  have hplaces' : d.tables.Places r.applicationId r.eventId r.subscriptionId := by
    rw [happ, hevent, hsub]
    exact hplaces
  have hown : (d.tables.ofApplication application).Places r.applicationId r.eventId
      r.subscriptionId := by
    rw [happ, hevent, hsub]
    exact hplaces.ofApplication
  refine ⟨!d.tables.isTaken r, d.tables.offer r, Tables.insertAttempt_eq_offer hplaces', ?_, ?_⟩
  · rw [Tables.insertAttempt_eq_offer hown, htaken, Tables.offer_ofApplication happ htaken]
  · obtain ⟨hevents, hsubs, -⟩ := d.tables.offer_frame r
    refine ⟨hd.isFit.offer hfresh hkey happ hplaces', ?_, fun x hx => ?_⟩
    · unfold Tables.OwnsEvent
      rw [hevents]
      exact hd.owns
    · exact (hd.places x hx).congr hevents hsubs

theorem isLocal_createAttempts {e : Event} (ha : e.applicationId = application) (now due : Int)
    (targets : List Subscription) :
    IsLocal application true (Data.Serves application e.eventId targets)
      (createAttempts e now due targets) fun _ => Data.Serves application e.eventId [] := by
  subst ha
  induction targets with
  | nil => exact .pure [] fun _ h => h
  | cons s rest ih =>
    refine (isLocal_drawAttempt e.eventId s rest).bind fun id => ?_
    have hkey : (AttemptRow.new (.new id e.applicationId e.eventId s.subscriptionId now due)
        (DispatchKey.initial e.eventId s.subscriptionId).write).IsInitial := rfl
    exact (isLocal_insertAttempt (.inl hkey)).bind fun _ => ih.bind fun _ => .pure _ fun _ h => h

theorem isLocal_markDispatched (event : Uuid) (now : Int) :
    IsLocal application draws (Data.Serves application event []) (markDispatched event now)
      fun _ d => d.tables.dangling = [] := by
  refine .atomically ((isLocal_touch _).bind fun _ => isLocal_change (fun d hd =>
    Tables.markDispatched_ofApplication hd.owns now) fun d hd => ?_) fun _ _ h => h
  exact (hd.isFit.registers (Tables.registers_markDispatched d.tables event now)).dangling

/-- The subscriptions that accept an event of the application can be served. -/
theorem serves_matching {d : Data} {e : Event} (h : d.Admits application e.eventId)
    (ha : e.applicationId = application) (he : e ∈ d.tables.events) :
    d.Serves application e.eventId
      (Subscription.matching (d.tables.subscriptionsOf application true) e) := by
  refine ⟨h.isFit.mono ?_, h.owns, fun s hs => ?_⟩
  · exact Nat.le_trans (List.length_filter_le _ _) (Data.length_subscriptionsOf_le ..)
  · obtain ⟨hm, happ⟩ := Data.mem_subscriptionsOf (List.mem_of_mem_filter hs)
    exact ⟨⟨e, he, rfl, ha⟩, ⟨s, hm, rfl, happ⟩⟩

theorem isLocal_ingest {e : Event} (ha : e.applicationId = application) (now : Int) :
    IsLocal application true (Data.Admits application e.eventId) (ingest e now) fun _ _ => True := by
  unfold ingest
  refine IsLocal.bind (q := fun _ d => d.tables.dangling = []) (.atomically
    ((isLocal_undispatchedEvent? ha).bind fun found => ?_) fun _ _ h => h) fun done => ?_
  · cases found with
    | none => exact .pure _ fun d hd => hd.1.isFit.dangling
    | some f =>
      refine .assume (fun d hd => (hd.2 f rfl).2.1) fun hf => ?_
      dsimp only
      rw [hf]
      refine (isLocal_listSubscriptions (fun d hd => hd.1.isFit.dangling) true).bind
        fun subscriptions => ?_
      refine ((isLocal_createAttempts hf now _ _).of fun d hd => ?_).bind fun created =>
        (isLocal_markDispatched f.eventId now).bind fun _ => .pure _ fun _ h => h
      obtain ⟨rfl, hadmits, hfound⟩ := hd
      obtain ⟨hid, happ, hm⟩ := hfound f rfl
      exact serves_matching (hid ▸ hadmits) happ hm
  · cases done with
    | none => exact .pure _ fun _ _ => trivial
    | some p => exact (isLocal_log _ _ _ _).bind fun _ => .pure _ fun _ _ => trivial

/-! ## Replay -/

theorem isLocal_replayTo (event : Uuid) (now : Int) (s : Subscription)
    (rest : List Subscription) :
    IsLocal application true (Data.Serves application event (s :: rest))
      (replayTo event application now s) fun _ => Data.Serves application event rest := by
  refine (isLocal_findOpenAttempt (fun d hd => hd.isFit.dangling)
    (fun d hd => hd.isFit.intact.sound) (fun d hd => hd.owns) s.subscriptionId).bind fun found => ?_
  cases found with
  | some existing => exact .pure existing fun d hd => hd.tail
  | none =>
    refine (isLocal_drawAttempt event s rest).bind fun id => IsLocal.bind
      (q := fun draw d => d.Serves application event rest ∧
        d.tables.Places application event s.subscriptionId ∧ d.tables.OwnsAttempt application id)
      (isLocal_drawId fun d hd => ?_) fun draw =>
        (isLocal_insertAttempt (.inr ⟨draw, rfl⟩)).bind fun _ => .pure _ fun _ h => h
    obtain ⟨hserves, hrest⟩ := hd
    exact ⟨⟨hserves.isFit.drawReplay, hserves.owns, hserves.places⟩, hrest⟩

theorem isLocal_mapM_replayTo (event : Uuid) (now : Int) (targets : List Subscription) :
    IsLocal application true (Data.Serves application event targets)
      (targets.mapM (replayTo event application now)) fun _ => Data.Serves application event [] := by
  induction targets with
  | nil => exact .pure [] fun _ h => h
  | cons s rest ih =>
    rw [List.mapM_cons]
    exact (isLocal_replayTo event now s rest).bind fun _ => ih.bind fun _ => .pure _ fun _ h => h

theorem isLocal_replayTargets (e : Event) (subscription : Option Uuid)
    (hd : ∀ d, p d → d.tables.dangling = []) (hc : ∀ d, p d → d.tables.Catalogued) :
    IsLocal application draws p (replayTargets e application subscription) fun targets d =>
      d.replayTargets? e application subscription = some targets ∧ p d := by
  have hlocal : IsLocal application draws p (replayTargets e application subscription) fun _ => p := by
    cases subscription with
    | none =>
      exact (isLocal_listSubscriptions hd true).bind fun _ => .pure _ fun _ h => h.2
    | some id =>
      refine (isLocal_getSubscription hd hc id).bind fun found => ?_
      cases found with
      | none => exact .throw _
      | some s =>
        dsimp only
        split
        · exact .pure _ fun _ h => h
        · exact .throw _
  exact hlocal.meets (meets_replayTargets e application subscription)
    fun _ _ _ _ hp ⟨ht, hd⟩ => ⟨hd ▸ ht, hp⟩

theorem length_replayTargets_le {d : Data} {e : Event} {subscription : Option Uuid}
    {targets : List Subscription} (h : d.replayTargets? e application subscription = some targets) :
    targets.length ≤ (d.tables.ofApplication application).subscriptions.length := by
  unfold Data.replayTargets? at h
  cases subscription with
  | none =>
    cases h
    exact Nat.le_trans (List.length_filter_le _ _) (Data.length_subscriptionsOf_le ..)
  | some id =>
    obtain ⟨s, hs, rfl⟩ := Option.map_eq_some_iff.mp h
    obtain ⟨hf, ha⟩ := Data.mem_of_inScope (Option.filter_eq_some_iff.mp hs).1
    exact List.length_pos_of_mem
      (List.mem_filter.mpr ⟨List.mem_of_find?_eq_some hf, beq_iff_eq.mpr ha⟩)

theorem isLocal_replay (event : Uuid) (subscription : Option Uuid) (now : Int) :
    IsLocal application true
      (fun d => d.IsFit application (d.tables.ofApplication application).subscriptions.length)
      (replay event application subscription now) fun _ _ => True := by
  unfold replay
  refine IsLocal.bind (q := fun _ d => d.tables.dangling = []) (.atomically
    ((isLocal_getEvent (fun d hd => hd.dangling) fun d hd => ?_).bind fun found => ?_)
      fun _ _ h => h) fun attempts => (isLocal_log _ _ _ _).bind fun _ => .pure _ fun _ _ => trivial
  · exact inScope_find?_filter hd.intact.catalogued.eventIds application event
  · cases found with
    | none => exact .throw _
    | some e =>
      refine (isLocal_replayTargets e subscription (fun d hd => hd.2.dangling)
        fun d hd => hd.2.intact.catalogued).bind fun targets =>
          ((isLocal_mapM_replayTo event now targets).of fun d hd => ?_).mono
            fun _ _ h => h.isFit.dangling
      obtain ⟨ht, he, hfit⟩ := hd
      obtain ⟨hf, ha⟩ := Data.mem_of_inScope he.symm
      obtain ⟨hm, hid⟩ := Data.mem_of_event? hf
      refine ⟨hfit.mono (length_replayTargets_le ht),
        Tables.ownsEvent_of_event? hfit.intact.catalogued hf ha, fun s hs => ?_⟩
      obtain ⟨hsm, hsa⟩ := Data.mem_replayTargets ht hs
      exact ⟨⟨e, hm, hid, ha⟩, ⟨s, hsm, rfl, hsa⟩⟩

/-! ## Known identifiers -/

theorem atomically_congr {α : Type} {body body' : Engine α} {w : World}
    (h : ∀ v : World, v.store.tables = w.store.tables → body v = body' v) :
    atomically body w = atomically body' w := by
  unfold atomically
  split
  · rfl
  · split
    · exact h w rfl
    · have hb := h { w with store := { w.store with inTransaction := true } } rfl
      rw [hb]

/-- A submission under the identifier of a stored event is one of the stored event. -/
theorem ingest_eq_of_event? {e stored : Event} {w : World}
    (h : w.store.tables.event? e.eventId = some stored) (now : Int) :
    ingest e now w = ingest stored now w := by
  have hid : stored.eventId = e.eventId := (Data.mem_of_event? h).2
  have hknown : ∀ f : Event, f.eventId = e.eventId →
      w.store.tables.insertEvent f = (false, w.store.tables) := by
    intro f hf
    unfold Tables.insertEvent
    rw [hf, h]
    rfl
  have hinsert : ∀ v : World, v.store.tables = w.store.tables →
      insertEvent e v = insertEvent stored v := by
    intro v hv
    refine atomically_congr fun u hu => ?_
    rw [bind_apply, bind_apply, touch_eq]
    split <;> rename_i heq <;> split at heq <;> cases heq
    · rw [change_apply, change_apply, hu, hv, hknown e rfl, hknown stored hid]
    · rfl
  have hfound : ∀ v : World, v.store.tables = w.store.tables →
      undispatchedEvent? e v = undispatchedEvent? stored v := by
    intro v hv
    unfold undispatchedEvent?
    rw [bind_apply, bind_apply, hinsert v hv]
    cases hr : insertEvent stored v with
    | mk r u =>
      cases r with
      | error err => rfl
      | ok isNew =>
        obtain ⟨hstored, -⟩ := (meets_insertEvent stored v).2 isNew (by rw [hr])
        change (isNew, _) = v.store.tables.insertEvent stored at hstored
        rw [hv, hknown stored hid, Prod.mk.injEq] at hstored
        obtain ⟨rfl, -⟩ := hstored
        rw [hid]
        rfl
  have hbegin : ∀ {α : Type} (next : Option Event → Engine α),
      atomically (undispatchedEvent? e >>= next) w =
        atomically (undispatchedEvent? stored >>= next) w :=
    fun next => atomically_congr fun v hv => by rw [bind_apply, bind_apply, hfound v hv]
  unfold ingest
  rw [bind_apply, bind_apply, hbegin]

theorem Reverts.of_map {α β : Type} {f : α → β} {body : Engine α} (h : Reverts (f <$> body)) :
    Reverts body := by
  intro w ht e he
  have hf := h w ht e
  rw [map_apply] at hf
  cases hb : body w with
  | mk r v =>
    rw [hb] at he hf
    cases r with
    | error err =>
      cases he
      exact hf rfl
    | ok x => cases he

end Engine

namespace TenantRequest

variable {application : Uuid}

theorem isLocal_run (q : TenantRequest) :
    Engine.IsLocal application q.draws (fun d => d.IsFit application 0 ∧ (q.draws →
        d.DrawsApart application (d.tables.ofApplication application).subscriptions.length) ∧
        q.IsOf application d.tables)
      (q.run application) fun _ _ => True := by
  cases q with
  | ingest e now =>
    refine .assume (fun d hd => hd.2.2.1) fun ha => ?_
    refine ((Engine.isLocal_ingest ha now).of fun d hd => ?_).map _ fun _ _ _ => trivial
    exact ⟨{ hd.1 with apart := hd.2.1 rfl }, hd.2.2.2⟩
  | replay event subscription now =>
    refine ((Engine.isLocal_replay event subscription now).of fun d hd => ?_).map _
      fun _ _ _ => trivial
    exact { hd.1 with apart := hd.2.1 rfl }
  | attempts filter now limit offset =>
    exact (Engine.isLocal_listAttempts (fun d hd => hd.1.dangling) filter now limit offset).map _
      fun _ _ _ => trivial
  | stats now =>
    exact (Engine.isLocal_attemptStats (fun d hd => hd.1.dangling) now).map _ fun _ _ _ => trivial
  | response id =>
    exact (Engine.isLocal_getResponse (fun d hd => hd.1.dangling)
      (fun d hd => hd.1.intact.sound.toIndexed) id).map _ fun _ _ _ => trivial

theorem reverts_run (q : TenantRequest) : (q.run application).Reverts := by
  cases q with
  | ingest e now => exact (Operation.reverts_run (.ingest e now)).of_map.map _
  | replay event subscription now =>
    exact (Operation.reverts_run (.replay event application subscription now)).of_map.map _
  | attempts filter now limit offset =>
    exact fun w _ _ _ => congrArg Store.tables
      (store_of_query _ (.attempts application filter now limit offset) rfl w)
  | stats now =>
    exact fun w _ _ _ => congrArg Store.tables (store_of_query _ (.stats application now) rfl w)
  | response id =>
    exact fun w _ _ _ => congrArg Store.tables
      (store_of_query _ (.response id (some application)) rfl w)

end TenantRequest

/-! ## All stores -/

theorem Request.routed (q : Request) {w : World} (hi : w.store.IsIdle) (hs : w.store.tables.Sound)
    (hr : w.store.tables.Routed) : (q.run w).2.store.tables.Routed := by
  rcases q.run_calls w with ⟨id, time, rfl⟩ | ⟨calls, hrun, -⟩
  · have hedit : Tables.Edit (fun _ => False) w.store.tables _ :=
      .register (Request.registers_markDispatched hi id time)
    exact hedit.routed hs hr
  · exact (hrun.preserves (I := fun s => s.IsIdle ∧ s.tables.Sound ∧ s.tables.Routed) ⟨hi, hs, hr⟩
      fun _ _ ⟨hi, hs, hr⟩ =>
        ⟨Call.isIdle_after hi, Call.sound_after hi hs, Call.routed_after hi hs hr⟩).1.2.2

/-- What holds of every store to which requests lead. -/
structure Store.IsTended (s : Store) : Prop where
  idle : s.IsIdle
  intact : s.tables.Intact
  routed : s.tables.Routed

theorem Store.Leads.isTended {onFile : Bool} {s : Store} (h : (Store.create onFile).Leads s) :
    s.IsTended :=
  h.invariant ⟨Store.isIdle_create onFile, Tables.intact_empty, Tables.routed_empty⟩
    fun q _ hw => ⟨q.isIdle hw.idle, q.intact hw.idle hw.intact,
      q.routed hw.idle hw.intact.sound hw.routed⟩

theorem Store.IsTended.isFit {w : World} (h : w.store.IsTended) (application : Uuid) :
    w.data.IsFit application 0 :=
  ⟨h.intact, h.routed.keyed, fun _ hid => absurd hid List.not_mem_nil⟩

/-- What is asked for an application leaves the rows of all others as they are, answers with records
of the application only, and gives the same answer and the same rows of the application wherever it
had the same rows before; what draws identifiers must draw the same ones there, and none of another
application's attempts. That holds of the submission of an event if no other application has one of
its identifier: a submission under the identifier of a stored event is one of the stored event. -/
theorem applications_do_not_interfere {onFile : Bool} {w : World}
    (h : (Store.create onFile).Leads w.store) (application : Uuid) :
    (∀ q : TenantRequest, q.IsOf application w.store.tables →
      (∀ other, other ≠ application → (q.run application w).2.store.tables.ofApplication other =
        w.store.tables.ofApplication other) ∧
      (∀ a, (q.run application w).1 = .ok a → a.IsOf application) ∧
      ∀ (onFile' : Bool) (v : World), (Store.create onFile').Leads v.store →
        q.IsOf application v.store.tables →
        v.store.tables.ofApplication application = w.store.tables.ofApplication application →
        (q.draws → v.ids = w.ids ∧
          w.data.DrawsApart application
            (w.store.tables.ofApplication application).subscriptions.length ∧
          v.data.DrawsApart application
            (v.store.tables.ofApplication application).subscriptions.length) →
        (q.run application v).1 = (q.run application w).1 ∧
        (q.run application v).2.store.tables.ofApplication application =
          (q.run application w).2.store.tables.ofApplication application) ∧
    ∀ (e stored : Event) (now : Int), w.store.tables.event? e.eventId = some stored →
      Engine.ingest e now w = Engine.ingest stored now w := by
  have hw := h.isTended
  refine ⟨fun q hq => ⟨fun other hne => q.ofApplication_of_ne hw.idle hq hne.symm,
    fun a ha => q.isOf hw.intact hq ha, ?_⟩, fun e stored now he => Engine.ingest_eq_of_event? he now⟩
  intro onFile' v h' hq' hrows hdraws
  have hv := h'.isTended
  have hlike : w.Resembles application q.draws v :=
    ⟨hv.idle.isOpen.trans hw.idle.isOpen.symm,
      hv.idle.inTransaction.trans hw.idle.inTransaction.symm, fun hd => (hdraws hd).1, hrows⟩
  rcases q.isLocal_run w v hlike
      ⟨hw.isFit application, fun hd => (hdraws hd).2.1, hq⟩
      ⟨hv.isFit application, fun hd => (hdraws hd).2.2, hq'⟩ with ⟨e, he, he'⟩ | ⟨a, ha, ha', hsame, -⟩
  · refine ⟨he'.trans he.symm, ?_⟩
    rw [q.reverts_run w hw.idle.inTransaction e he, q.reverts_run v hv.idle.inTransaction e he']
    exact hrows
  · exact ⟨ha'.trans ha.symm, hsame.rows⟩

namespace Sample

/-- A subscription and an event of another application. -/
def neighbour : Subscription :=
  { subscription with subscriptionId := .ofNat 4, applicationId := .ofNat 5 }

def neighbourEvent : Event := { event with eventId := .ofNat 6, applicationId := .ofNat 5 }

/-- The store of two applications. -/
def crowded : World := world.runAll
  [.saveSubscription subscription, .saveSubscription neighbour, .ingest neighbourEvent 0]

/-- The store of one of them alone. -/
def quiet : World := { world.runAll [.saveSubscription subscription] with ids := crowded.ids }

end Sample

theorem neighbour_makes_no_difference :
    ((TenantRequest.ingest Sample.event 5).run Sample.application Sample.crowded).1 =
      ((TenantRequest.ingest Sample.event 5).run Sample.application Sample.quiet).1 := by
  have h : (Store.create true).Leads Sample.quiet.store :=
    Store.leads_runAll Sample.world [.saveSubscription Sample.subscription]
  have h' : (Store.create true).Leads Sample.crowded.store := Store.leads_runAll Sample.world _
  have hrows : Sample.crowded.store.tables.ofApplication Sample.application =
      Sample.quiet.store.tables.ofApplication Sample.application := by
    have hresponses : ∀ w ∈ [Sample.crowded, Sample.quiet],
        (w.store.tables.ofApplication Sample.application).responses.length = 0 := by
      decide +kernel
    rw [List.forall_mem_cons, List.forall_mem_singleton, List.length_eq_zero_iff,
      List.length_eq_zero_iff] at hresponses
    refine Tables.ofApplication_congr ?_ ?_ ?_ (hresponses.1.trans hresponses.2.symm) ?_ ?_ <;>
      decide +kernel
  have howns : ∀ w ∈ [Sample.quiet, Sample.crowded],
      w.store.tables.OwnsEvent Sample.application Sample.event.eventId := by
    unfold Tables.OwnsEvent
    decide +kernel
  have hapart : ∀ w ∈ [Sample.quiet, Sample.crowded], w.data.DrawsApart Sample.application
      (w.store.tables.ofApplication Sample.application).subscriptions.length := by
    unfold Data.DrawsApart Tables.OwnsAttempt
    decide +kernel
  rw [List.forall_mem_cons, List.forall_mem_singleton] at howns hapart
  obtain ⟨-, -, hsame⟩ := (applications_do_not_interfere h Sample.application).1
    (.ingest Sample.event 5) ⟨rfl, howns.1⟩
  exact (hsame true Sample.crowded h' ⟨rfl, howns.2⟩ hrows fun _ => ⟨rfl, hapart⟩).1

/-- An event is stored and not yet dispatched. -/
def held : List Operation :=
  [.saveSubscription Sample.subscription, .storeEvent Sample.event]

/-- An event of another application under the identifier of the stored one. -/
def Sample.intruder : Event := { neighbourEvent with eventId := event.eventId }

/-- The other application is answered with an attempt of the stored event, which is added to rows
that are not its own. -/
theorem foreign_event_is_dispatched :
    (Store.create true).Leads (Sample.world.runAll held).store ∧
    Sample.intruder.applicationId ≠ Sample.application ∧
    (∃ created, (Engine.ingest Sample.intruder 0 (Sample.world.runAll held)).1 = .ok created ∧
      created.map (·.applicationId) = [Sample.application]) ∧
    (Engine.ingest Sample.intruder 0
        (Sample.world.runAll held)).2.store.tables.ofApplication Sample.application ≠
      (Sample.world.runAll held).store.tables.ofApplication Sample.application := by
  refine ⟨Store.leads_runAll Sample.world held, by decide, ?_, fun h => ?_⟩
  · have hvalue : (match (Engine.ingest Sample.intruder 0 (Sample.world.runAll held)).1 with
        | .ok created => created.map (·.applicationId)
        | .error _ => []) = [Sample.application] := by decide +kernel
    cases hr : (Engine.ingest Sample.intruder 0 (Sample.world.runAll held)).1 with
    | error e =>
      rw [hr] at hvalue
      cases hvalue
    | ok created =>
      rw [hr] at hvalue
      exact ⟨created, rfl, hvalue⟩
  · have hattempts := congrArg (fun t : Tables => t.attempts.length) h
    revert hattempts
    decide +kernel

end WebhookDelivery
