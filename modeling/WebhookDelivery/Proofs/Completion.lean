import WebhookDelivery.Proofs.Isolation
import WebhookDelivery.Proofs.Statuses

/-!
# WebhookDelivery.Proofs.Completion

Operations that cannot fail. An operation reads rows back, and one that cannot be read breaks it off;
all else that it relies on, every intact store provides.

* `Engine.Completes p body`: over an open connection and data of which `p` holds, `body` gives a
  value. What it gives is for `Meets` to tell, so the rules need no postconditions of their own.
* `Engine.Attains p body q`: there `body` completes, and `q` holds then. This is for operations that
  complete only because of what was done before them.
* `completes_getRow`, `completes_readRows`: a query completes if the rows that it selects can be read.
* `completes_claimNext`, `completes_findStale`: so does a claim if the rows of its attempt can be.
* `completes_ingest`: a submission completes if the stored copy of the event, if there is one, and the
  enabled subscriptions of its application can be read.
-/

namespace WebhookDelivery

/-- The event and the subscription of a delivery are there and can be read. -/
structure Tables.Supplies (t : Tables) (event subscription : Uuid) : Prop where
  event : ∃ e, t.event? event = some e ∧ e.check = .ok e
  subscription : ∃ s, t.subscription? subscription = some s ∧ s.readRow = .ok s

/-- An event that is not new leaves the tables as they were. -/
theorem Tables.eq_of_insertEvent_eq_false {t t' : Tables} {e : Event}
    (h : (false, t') = t.insertEvent e) : t' = t := by
  unfold insertEvent at h
  split at h
  · exact congrArg Prod.snd h
  · cases congrArg Prod.fst h

theorem Tables.Supplies.congr {t t' : Tables} {event subscription : Uuid}
    (h : t.Supplies event subscription) (he : t'.events = t.events)
    (hs : t'.subscriptions = t.subscriptions) : t'.Supplies event subscription := by
  refine ⟨?_, ?_⟩
  · rw [event?, he]
    exact h.event
  · rw [subscription?, hs]
    exact h.subscription

namespace Tables.Intact

variable {t : Tables}

theorem registers (h : t.Intact) {t' : Tables} (hr : t.Registers t') : t'.Intact := by
  have hc : Change (fun _ => False) t t' := .edit (.register hr)
  exact hc.intact h

theorem claim (h : t.Intact) (c : Claimant) (now : Int) : (t.claim c now).2.Intact := by
  have hc : Change (fun _ => False) t (t.claim c now).2 := .edit (.claim c now)
  exact hc.intact h

theorem offer (h : t.Intact) {r : AttemptRow} (fresh : r.IsFresh)
    (places : t.Places r.applicationId r.eventId r.subscriptionId) : (t.offer r).Intact := by
  have hc : Change (fun _ => False) t (t.offer r) := .offer r fresh places
  exact hc.intact h

end Tables.Intact

/-- The event that is found to be fanned out is the stored one. -/
theorem Data.of_undispatchedEvent? {d d' : Data} {e f : Event} (hi : d'.ids = d.ids)
    (h : match d.tables.event? e.eventId with
      | none => some f = some e ∧ d'.tables = { d.tables with events := d.tables.events ++ [e] }
      | some stored => some f = (if stored.dispatchedAt.isSome then none else some stored) ∧
        d'.tables = d.tables) : d' = d.insertEvent e ∧ f = d.asStored e := by
  unfold insertEvent asStored Tables.insertEvent
  cases hs : d.tables.event? e.eventId with
  | none =>
    rw [hs] at h
    exact ⟨Data.ext h.2 hi, Option.some.inj h.1⟩
  | some stored =>
    rw [hs] at h
    refine ⟨Data.ext h.2 hi, ?_⟩
    by_cases hd : stored.dispatchedAt.isSome
    · simp [hd] at h
    · simpa [hd] using h.1

namespace Engine

variable {α β : Type} {p : Data → Prop} {body : Engine α}

def Completes (p : Data → Prop) (body : Engine α) : Prop :=
  ∀ w : World, w.store.isOpen = true → p w.data → ∃ x, (body w).1 = .ok x

namespace Completes

theorem weaken {p' : Data → Prop} (h : Completes p body) (hp : ∀ d, p' d → p d) :
    Completes p' body :=
  fun w ho hw => h w ho (hp _ hw)

/-- What all data of `p` have in common may be taken for granted. -/
theorem assume (fact : Prop) (hp : ∀ d, p d → fact) (h : fact → Completes p body) :
    Completes p body :=
  fun w ho hw => h (hp _ hw) w ho hw

theorem of_succeeds (h : Succeeds body) : Completes p body := fun w _ _ => h w

theorem pure (a : α) : Completes p (pure a) := of_succeeds (succeeds_pure a)

theorem ofExcept {ε : Type} {wrap : ε → OperationError} {r : Except ε α} (h : ∃ a, r = .ok a) :
    Completes p (ofExcept wrap r) := by
  obtain ⟨a, rfl⟩ := h
  exact .pure a

theorem bind {x : Engine α} {f : α → Engine β} {post : Data → α → Data → Prop} (hm : Meets x post)
    (hx : Completes p x) (hf : ∀ a, Completes (fun d' => ∃ d, p d ∧ post d a d') (f a)) :
    Completes p (x >>= f) := by
  intro w ho hw
  obtain ⟨a, ha⟩ := hx w ho hw
  obtain ⟨hc, hp⟩ := hm w
  rw [bind_apply]
  cases hr : x w with
  | mk r v =>
    rw [hr] at ha hc hp
    dsimp only at ha
    subst ha
    exact hf a v (hc.isOpen.trans ho) ⟨_, hw, hp a rfl⟩

/-- What leaves the data as they are leaves `p` as it is. -/
theorem keep {x : Engine α} {f : α → Engine β} (hm : Meets x fun d _ d' => d' = d)
    (hx : Completes p x) (hf : ∀ a, Completes p (f a)) : Completes p (x >>= f) := by
  refine .bind hm hx fun a => (hf a).weaken ?_
  rintro _ ⟨d, hd, rfl⟩
  exact hd

theorem map (f : α → β) (h : Completes p body) : Completes p (f <$> body) := by
  intro w ho hw
  obtain ⟨a, ha⟩ := h w ho hw
  rw [map_apply]
  cases hr : body w with
  | mk r v =>
    rw [hr] at ha
    dsimp only at ha
    subst ha
    exact ⟨f a, rfl⟩

/-- A transaction completes if no reference is left open at its end. -/
theorem atomically {post : Data → α → Data → Prop} (hm : Meets body post) (h : Completes p body)
    (hd : ∀ d x d', p d → post d x d' → d'.tables.dangling = []) :
    Completes p (atomically body) := by
  intro w ho hw
  unfold Engine.atomically
  rw [if_neg (by simp [ho])]
  by_cases ht : w.store.inTransaction
  · rw [if_pos ht]
    exact h w ho hw
  · rw [if_neg ht]
    obtain ⟨a, ha⟩ := h { w with store := { w.store with inTransaction := true } } ho hw
    have hp := (hm { w with store := { w.store with inTransaction := true } }).2 a ha
    cases hr : body { w with store := { w.store with inTransaction := true } } with
    | mk r v =>
      rw [hr] at ha hp
      dsimp only at ha
      subst ha
      have hk : Tables.keepsReferences w.store.tables v.store.tables :=
        Tables.keepsReferences_of_dangling (hd _ _ _ hw hp)
      exact ⟨a, by simp [settle, hk]⟩

theorem mapM {f : α → Engine β} (hm : ∀ a, Meets (f a) fun d _ d' => d' = d) {rows : List α}
    (hf : ∀ a ∈ rows, Completes p (f a)) : Completes p (rows.mapM f) := by
  induction rows with
  | nil => exact .pure []
  | cons a rest ih =>
    rw [List.forall_mem_cons] at hf
    rw [List.mapM_cons]
    have hrest : Meets (rest.mapM f) fun d _ d' => d' = d :=
      (meets_mapM (p := fun _ _ _ => True) (fun a => (hm a).mono fun _ _ _ h => ⟨trivial, h⟩)
        rest).mono fun _ _ _ h => h.2
    exact .keep (hm a) hf.1 fun _ => .keep hrest (ih hf.2) fun _ => .pure _

end Completes

/-! ## Operations that attain something -/

/-- Where `p` holds `body` completes, and `q` holds of its value and the data then. -/
def Attains (p : Data → Prop) (body : Engine α) (q : α → Data → Prop) : Prop :=
  ∀ w : World, w.store.isOpen = true → p w.data →
    ∃ x v, body w = (.ok x, v) ∧ v.store.isOpen = true ∧ q x v.data

theorem Completes.attains {post : Data → α → Data → Prop} {q : α → Data → Prop}
    (h : Completes p body) (hm : Meets body post)
    (hq : ∀ d x d', p d → post d x d' → q x d') : Attains p body q := by
  intro w ho hw
  obtain ⟨x, hx⟩ := h w ho hw
  obtain ⟨hc, hp⟩ := hm w
  exact ⟨x, (body w).2, Prod.ext hx rfl, hc.isOpen.trans ho, hq _ _ _ hw (hp x hx)⟩

namespace Attains

variable {q q' : α → Data → Prop}

theorem mono (h : Attains p body q) (hq : ∀ x d, q x d → q' x d) : Attains p body q' := by
  intro w ho hw
  obtain ⟨x, v, hx, hv, hxv⟩ := h w ho hw
  exact ⟨x, v, hx, hv, hq x _ hxv⟩

theorem weaken {p' : Data → Prop} (h : Attains p body q) (hp : ∀ d, p' d → p d) :
    Attains p' body q :=
  fun w ho hw => h w ho (hp _ hw)

theorem pure {a : α} (h : ∀ d, p d → q a d) : Attains p (pure a) q :=
  fun w ho hw => ⟨a, w, rfl, ho, h _ hw⟩

theorem bind {x : Engine α} {f : α → Engine β} {r : β → Data → Prop} (hx : Attains p x q)
    (hf : ∀ a, Attains (q a) (f a) r) : Attains p (x >>= f) r := by
  intro w ho hw
  obtain ⟨a, v, ha, hv, hq⟩ := hx w ho hw
  obtain ⟨b, u, hb, hu, hr⟩ := hf a v hv hq
  refine ⟨b, u, ?_, hu, hr⟩
  rw [bind_apply, ha]
  exact hb

/-- What succeeds and leaves the data as they are keeps what holds of them. -/
theorem keep (h : Succeeds body) (hm : Meets body fun d _ d' => d' = d) :
    Attains p body fun _ => p :=
  (Completes.of_succeeds h).attains hm fun _ _ _ hd he => he ▸ hd

/-- What all data of `p` have in common may be taken for granted. -/
theorem assume (fact : Prop) (hp : ∀ d, p d → fact) (h : fact → Attains p body q) :
    Attains p body q :=
  fun w ho hw => h (hp _ hw) w ho hw

end Attains

/-! ## Parts -/

theorem completes_tables : Completes p tables := fun _ _ _ => ⟨_, rfl⟩

theorem completes_change (f : Tables → α × Tables) : Completes p (change f) :=
  fun _ _ _ => ⟨_, rfl⟩

theorem completes_touch (hi : ∀ d, p d → d.tables.Intact) (name : TableName) :
    Completes p (touch name) := by
  intro w _ hw
  rw [touch_apply (hi _ hw).sound.lost]
  exact ⟨(), rfl⟩

theorem completes_checkInteger {n : Int} (h : Fits n) : Completes p (checkInteger n) := by
  intro w _ _
  rw [checkInteger_apply h]
  exact ⟨(), rfl⟩

theorem completes_statement {f : Tables → Except StatementError (α × Tables)}
    (h : ∀ d, p d → ∃ p, f d.tables = .ok p) : Completes p (statement f) := by
  intro w _ hw
  obtain ⟨p, hp⟩ := h _ hw
  rw [statement_apply, show f w.store.tables = .ok p from hp]
  exact ⟨p.1, rfl⟩

/-! ## Queries -/

theorem completes_query (hi : ∀ d, p d → d.tables.Intact) (name : TableName)
    (query : Tables → α) :
    Completes p (atomically do touch name; return query (← tables)) := by
  refine .atomically ((meets_touch name).bind fun _ => meets_tables.bind fun t => .pure (query t))
    (.keep (meets_touch name) (completes_touch hi name) fun _ => .keep ?_ completes_tables fun _ =>
      .pure _) ?_
  · exact meets_tables.mono fun _ _ _ h => h.2
  · rintro d _ _ hd ⟨_, _, rfl, t, _, ⟨rfl, rfl⟩, rfl, rfl⟩
    exact (hi _ hd).answered.dangling

theorem completes_getRow {ε : Type} {name : TableName} {query : Tables → Option α}
    {wrap : ε → OperationError} {read : α → Except ε β} (hi : ∀ d, p d → d.tables.Intact)
    (hr : ∀ d, p d → ∀ row, query d.tables = some row → ∃ b, read row = .ok b) :
    Completes p (do
      let row ← atomically do
        touch name
        return query (← tables)
      readRow (fun x => ofExcept wrap (read x)) row) := by
  refine .bind (meets_query name query) (completes_query hi name query) fun row => ?_
  cases row with
  | none => exact .pure none
  | some a =>
    refine .assume (∃ b, read a = .ok b) ?_ fun hread => .map some (.ofExcept hread)
    rintro _ ⟨d, hd, hrow, rfl⟩
    exact hr _ hd a hrow.symm

theorem completes_readRows {ε : Type} {rows : Engine (List α)} (query : Tables → List α)
    {wrap : ε → OperationError} {read : α → Except ε β}
    (hm : Meets rows fun d x d' => x = query d.tables ∧ d' = d) (hc : Completes p rows)
    (hr : ∀ d, p d → ∀ row ∈ query d.tables, ∃ b, read row = .ok b) :
    Completes p (rows >>= fun found => found.mapM fun x => ofExcept wrap (read x)) := by
  refine .bind hm hc fun found => .mapM (fun x => ?_) fun row hrow => ?_
  · exact (meets_ofExcept wrap (read x)).mono fun _ _ _ h => h.2
  · refine .assume (∃ b, read row = .ok b) ?_ .ofExcept
    rintro _ ⟨d, hd, rfl, rfl⟩
    exact hr _ hd row hrow

theorem completes_getEvent (hi : ∀ d, p d → d.tables.Intact) {id : Uuid} (scope : Option Uuid)
    (hr : ∀ d, p d → ∀ e, d.tables.event? id = some e → e.check = .ok e) :
    Completes p (getEvent id scope) :=
  completes_getRow hi fun d hd e he => ⟨e, hr d hd e (Option.filter_eq_some_iff.mp he).1⟩

theorem completes_getSubscription (hi : ∀ d, p d → d.tables.Intact) {id : Uuid}
    (scope : Option Uuid)
    (hr : ∀ d, p d → ∀ s, d.tables.subscription? id = some s → s.readRow = .ok s) :
    Completes p (getSubscription id scope) :=
  completes_getRow hi fun d hd s hs => ⟨s, hr d hd s (Option.filter_eq_some_iff.mp hs).1⟩

theorem completes_listSubscriptions (hi : ∀ d, p d → d.tables.Intact) {application : Uuid}
    {enabledOnly : Bool}
    (hr : ∀ d, p d → ∀ s ∈ d.tables.subscriptionsOf application enabledOnly, s.readRow = .ok s) :
    Completes p (listSubscriptions application enabledOnly) :=
  completes_readRows ((·.subscriptionsOf application enabledOnly)) (meets_query _ _)
    (completes_query hi _ _) fun d hd s hs => ⟨s, hr d hd s hs⟩

theorem completes_listResponses (hi : ∀ d, p d → d.tables.Intact) {id : Uuid}
    (hr : ∀ d, p d → ∀ x ∈ d.tables.responsesOf id, x.readRow = .ok x) :
    Completes p (listResponses id) :=
  completes_readRows ((·.responsesOf id)) (meets_query _ _) (completes_query hi _ _)
    fun d hd x hx => ⟨x, hr d hd x hx⟩

theorem completes_listUndispatched (hi : ∀ d, p d → d.tables.Intact) {limit : Int}
    (fits : Fits limit) (hr : ∀ d, p d → ∀ e ∈ d.tables.undispatched limit, e.check = .ok e) :
    Completes p (listUndispatched limit) := by
  have hm : Meets (do touch .event; checkInteger limit; return (← tables).undispatched limit)
      fun d rows d' => rows = d.tables.undispatched limit ∧ d' = d := by
    refine ((meets_touch _).bind fun _ => (meets_checkInteger limit).bind fun _ =>
      meets_tables.bind fun t => .pure (t.undispatched limit)).mono ?_
    rintro d _ _ ⟨_, _, rfl, _, _, rfl, t, _, ⟨rfl, rfl⟩, rfl, rfl⟩
    exact ⟨rfl, rfl⟩
  refine completes_readRows ((·.undispatched limit)) hm.atomically
    (.atomically hm ?_ ?_) fun d hd e he => ⟨e, hr d hd e he⟩
  · exact .keep (meets_touch _) (completes_touch hi _) fun _ => .keep (meets_checkInteger _)
      (completes_checkInteger fits) fun _ => .keep (meets_tables.mono fun _ _ _ h => h.2)
        completes_tables fun _ => .pure _
  · rintro d _ _ hd ⟨-, rfl⟩
    exact (hi _ hd).answered.dangling

/-! ## Claims -/

theorem completes_loadClaim (hi : ∀ d, p d → d.tables.Intact) {a : Attempt}
    (hs : ∀ d, p d → d.tables.Supplies a.eventId a.subscriptionId) :
    Completes p (loadClaim a) := by
  have hevent : Completes p (getEvent a.eventId none) := by
    refine completes_getEvent hi none fun d hd e he => ?_
    obtain ⟨f, hf, hcheck⟩ := (hs d hd).event
    rwa [Option.some.inj (he.symm.trans hf)]
  have hsubscription : Completes p (getSubscription a.subscriptionId none) := by
    refine completes_getSubscription hi none fun d hd s hsub => ?_
    obtain ⟨t, ht, hread⟩ := (hs d hd).subscription
    rwa [Option.some.inj (hsub.symm.trans ht)]
  refine .bind (meets_getEvent _ _) hevent fun event => .bind (meets_getSubscription _ _)
    (hsubscription.weaken ?_) fun subscription => ?_
  · rintro _ ⟨d, hd, -, rfl⟩
    exact hd
  · refine .assume (∃ e s, event = some e ∧ subscription = some s) ?_ ?_
    · rintro _ ⟨_, ⟨d, hd, he, rfl⟩, hsub, rfl⟩
      obtain ⟨f, hf, -⟩ := (hs _ hd).event
      obtain ⟨t, ht, -⟩ := (hs _ hd).subscription
      rw [inScope_none] at he hsub
      exact ⟨f, t, he.trans hf, hsub.trans ht⟩
    · rintro ⟨e, s, rfl, rfl⟩
      exact .pure _

theorem completes_readClaim (hi : ∀ d, p d → d.tables.Intact) {r : AttemptRow}
    (hr : r.IsReadable) (hs : ∀ d, p d → d.tables.Supplies r.eventId r.subscriptionId) :
    Completes p (readAttempt r >>= loadClaim) := by
  have hread : r.read = .ok r.record := AttemptRow.read_eq_ok_iff.mpr ⟨hr, rfl⟩
  refine .bind (meets_readAttempt r) (.ofExcept ⟨_, hread⟩) fun a => ?_
  refine .assume (a = r.record) ?_ ?_
  · rintro _ ⟨d, hd, ha, rfl⟩
    exact (AttemptRow.read_eq_ok_iff.mp ha).2
  · rintro rfl
    refine (completes_loadClaim (p := p) hi hs).weaken ?_
    rintro _ ⟨d, hd, -, rfl⟩
    exact hd

/-- A claim completes if the row that it gives to the claimant can be read, with what it delivers. -/
theorem completes_claimNext (hi : ∀ d, p d → d.tables.Intact) {c : Claimant} {now : Int}
    (hr : ∀ d, p d → ∀ r, d.tables.nextClaim? c now = some r →
      (r.claimedBy c now).IsReadable ∧ d.tables.Supplies r.eventId r.subscriptionId) :
    Completes p (claimNext c now) := by
  have hload : ∀ r, Completes (fun d' => ∃ d, p d ∧ (some r, d'.tables) = d.tables.claim c now)
      (do return some (← loadClaim (← readAttempt r))) := by
    intro r
    -- The claimed row is that of the next claim, whose event and subscription are still there.
    have hclaimed : ∀ d : Data, (some r, (d.tables.claim c now).2) = d.tables.claim c now →
        ∃ old, d.tables.nextClaim? c now = some old ∧ r = old.claimedBy c now := by
      intro d hd
      unfold Tables.claim at hd
      cases hn : d.tables.nextClaim? c now with
      | none => simp [hn] at hd
      | some old =>
        rw [hn] at hd
        exact ⟨old, rfl, Option.some.inj (congrArg Prod.fst hd)⟩
    change Completes _ (readAttempt r >>= fun a => loadClaim a >>= fun claim => pure (some claim))
    rw [← bind_assoc]
    refine .keep ((meets_readClaim r).mono fun _ _ _ h => h.2) ?_ fun _ => .pure _
    refine .assume r.IsReadable ?_ fun hread => completes_readClaim ?_ hread ?_
    · rintro d' ⟨d, hd, h⟩
      obtain ⟨old, hold, rfl⟩ := hclaimed d (by rw [← congrArg Prod.snd h]; exact h)
      exact (hr d hd old hold).1
    · rintro d' ⟨d, hd, h⟩
      rw [show d'.tables = (d.tables.claim c now).2 from congrArg Prod.snd h]
      exact (hi d hd).claim c now
    · rintro d' ⟨d, hd, h⟩
      obtain ⟨old, hold, rfl⟩ := hclaimed d (by rw [← congrArg Prod.snd h]; exact h)
      obtain ⟨he, hs, -⟩ := d.tables.claim_frame c now
      rw [show d'.tables = (d.tables.claim c now).2 from congrArg Prod.snd h]
      exact (hr d hd old hold).2.congr he hs
  unfold claimNext
  refine .atomically ((meets_touch _).bind fun _ => (meets_touch _).bind fun _ =>
    (meets_change _).bind (q := fun _ d _ d' => d' = d) fun row => ?_) ?_ ?_
  · cases row with
    | none => exact (Meets.pure _).mono fun _ _ _ h => h.2
    | some r =>
      change Meets (readAttempt r >>= fun a => loadClaim a >>= fun claim => pure (some claim)) _
      rw [← bind_assoc]
      refine ((meets_readClaim r).bind fun claim => .pure (some claim)).mono ?_
      rintro _ _ _ ⟨_, _, ⟨-, rfl⟩, -, rfl⟩
      rfl
  · refine .keep (meets_touch _) (completes_touch hi _) fun _ => .keep (meets_touch _)
      (completes_touch hi _) fun _ => .bind (meets_change _) (completes_change _) fun row => ?_
    cases row with
    | none => exact .pure none
    | some r =>
      refine (hload r).weaken ?_
      rintro d' ⟨d, hd, h, -⟩
      exact ⟨d, hd, h⟩
  · rintro _ _ d' hd ⟨_, _, rfl, _, d, rfl, _, _, ⟨h, -⟩, rfl⟩
    rw [show d'.tables = (d.tables.claim c now).2 from congrArg Prod.snd h]
    exact ((hi d hd).claim c now).answered.dangling

theorem completes_findStale (hi : ∀ d, p d → d.tables.Intact) {before limit : Int}
    (fits : Fits limit) (hr : ∀ d, p d → ∀ r ∈ d.tables.staleClaims before limit,
      r.IsReadable ∧ d.tables.Supplies r.eventId r.subscriptionId) :
    Completes p (findStale before limit) := by
  unfold findStale
  refine .atomically ((meets_touch _).bind fun _ => (meets_checkInteger _).bind fun _ =>
    meets_tables.bind fun t => meets_mapM (p := fun d r claim => claim.Loads d.tables r)
      meets_readClaim (t.staleClaims before limit)) ?_ ?_
  · refine .keep (meets_touch _) (completes_touch hi _) fun _ => .keep (meets_checkInteger _)
      (completes_checkInteger fits) fun _ => .bind meets_tables completes_tables fun t => ?_
    refine .mapM (fun r => (meets_readClaim r).mono fun _ _ _ h => h.2) fun r hm => ?_
    refine .assume r.IsReadable ?_ fun hread => completes_readClaim ?_ hread ?_
    · rintro _ ⟨d, hd, rfl, rfl⟩
      exact (hr _ hd r hm).1
    · rintro _ ⟨d, hd, rfl, rfl⟩
      exact hi _ hd
    · rintro _ ⟨d, hd, rfl, rfl⟩
      exact (hr _ hd r hm).2
  · rintro d _ _ hd ⟨_, _, rfl, _, _, rfl, t, _, ⟨rfl, rfl⟩, -, rfl⟩
    exact (hi _ hd).answered.dangling

/-! ## Dispatch -/

theorem completes_insertEvent (hi : ∀ d, p d → d.tables.Intact) (e : Event) :
    Completes p (insertEvent e) := by
  refine .atomically ((meets_touch _).bind fun _ => meets_change _)
    (.keep (meets_touch _) (completes_touch hi _) fun _ => completes_change _) ?_
  rintro _ _ d' hd ⟨_, d, rfl, ht, -⟩
  rw [show d'.tables = (d.tables.insertEvent e).2 from congrArg Prod.snd ht]
  exact ((hi d hd).registers (d.tables.registers_insertEvent e)).answered.dangling

theorem completes_markDispatched (hi : ∀ d, p d → d.tables.Intact) (id : Uuid) (time : Int) :
    Completes p (markDispatched id time) := by
  refine .atomically ((meets_touch _).bind fun _ => meets_change _)
    (.keep (meets_touch _) (completes_touch hi _) fun _ => completes_change _) ?_
  rintro _ _ d' hd ⟨_, d, rfl, ht, -⟩
  rw [show d'.tables = (d.tables.markDispatched id time).2 from congrArg Prod.snd ht]
  exact ((hi d hd).registers (d.tables.registers_markDispatched id time)).answered.dangling

theorem completes_insertAttempt (hi : ∀ d, p d → d.tables.Intact) {id application event sub : Uuid}
    {now due : Int} {key : String} (hp : ∀ d, p d → d.tables.Places application event sub) :
    Completes p (insertAttempt (.new id application event sub now due) key) := by
  have hzero : Fits 0 := ⟨by decide, by decide⟩
  refine .atomically ((meets_touch _).bind fun _ => (meets_checkInteger _).bind fun _ =>
    meets_statement _) (.keep (meets_touch _) (completes_touch hi _) fun _ =>
      .keep (meets_checkInteger _) (completes_checkInteger hzero) fun _ => completes_statement ?_) ?_
  · intro d hd
    exact ⟨_, Tables.insertAttempt_eq_offer (hp d hd)⟩
  · rintro _ isNew d' hd ⟨_, _, rfl, _, d, rfl, h, -⟩
    rw [(Tables.insertAttempt_eq_ok h).1]
    exact ((hi d hd).offer (AttemptRow.isFresh_new ..) (hp d hd)).answered.dangling

theorem completes_createAttempts (e : Event) (now : Int) (targets : List Subscription) :
    Completes (fun d => d.tables.Intact ∧
        ∀ s ∈ targets, d.tables.Places e.applicationId e.eventId s.subscriptionId)
      (createAttempts e now (max now e.occurredAt) targets) := by
  induction targets with
  | nil => exact .pure []
  | cons s rest ih =>
    refine .bind (meets_drawId .attempt) (fun _ _ _ => ⟨_, rfl⟩) fun id => ?_
    refine .bind (meets_insertAttempt _ _) (completes_insertAttempt ?_ ?_) fun isNew => ?_
    · rintro _ ⟨d, ⟨hd, -⟩, -, rfl⟩
      exact hd
    · rintro _ ⟨d, ⟨-, hp⟩, -, rfl⟩
      exact hp s List.mem_cons_self
    · refine .bind (meets_createAttempts e now rest) (ih.weaken ?_) fun more => .pure _
      rintro _ ⟨_, ⟨d, ⟨hd, hp⟩, -, rfl⟩, rfl, -⟩
      rw [List.forall_mem_cons] at hp
      obtain ⟨he, hs, -⟩ := d.tables.offer_frame (.new (.new id e.applicationId e.eventId
        s.subscriptionId now (max now e.occurredAt))
          (DispatchKey.initial e.eventId s.subscriptionId).write)
      exact ⟨hd.offer (AttemptRow.isFresh_new ..) hp.1, fun x hx => (hp.2 x hx).congr he hs⟩

theorem completes_undispatchedEvent? (hi : ∀ d, p d → d.tables.Intact) {e : Event}
    (hr : ∀ d, p d → ∀ f, d.tables.event? e.eventId = some f → f.check = .ok f) :
    Completes p (undispatchedEvent? e) := by
  refine .bind (meets_insertEvent e) (completes_insertEvent hi e) fun isNew => ?_
  cases isNew with
  | true => exact .pure _
  | false =>
    refine .bind (meets_getEvent _ _) (completes_getEvent ?_ none ?_) fun row => ?_
    · rintro d' ⟨d, hd, ht, -⟩
      rw [Tables.eq_of_insertEvent_eq_false ht]
      exact hi d hd
    · rintro d' ⟨d, hd, ht, -⟩
      rw [Tables.eq_of_insertEvent_eq_false ht]
      exact hr d hd
    · cases row with
      | none => exact .pure _
      | some f => exact .pure _

/-- A stored event is fanned out if the subscriptions that may receive it can be read. -/
theorem completes_fanOut (f : Event) (now : Int) :
    Completes (fun d => d.tables.Intact ∧ f ∈ d.tables.events ∧
        ∀ s ∈ d.tables.subscriptionsOf f.applicationId true, s.readRow = .ok s) (do
      let subscriptions ← listSubscriptions f.applicationId true
      let matched := Subscription.matching subscriptions f
      let created ← createAttempts f now (max now f.occurredAt) matched
      let _ ← markDispatched f.eventId now
      return some (f, matched, created)) := by
  refine .bind (meets_listSubscriptions _ _)
    (completes_listSubscriptions (fun _ h => h.1) fun _ h => h.2.2) fun subscriptions => ?_
  have hplaces : ∀ d : Data, f ∈ d.tables.events →
      ∀ s ∈ Subscription.matching (d.tables.subscriptionsOf f.applicationId true) f,
        d.tables.Places f.applicationId f.eventId s.subscriptionId := by
    intro d hf s hs
    obtain ⟨hm, ha⟩ := Data.mem_receivers hs
    exact ⟨⟨f, hf, rfl, rfl⟩, s, hm, rfl, ha⟩
  refine .bind (meets_createAttempts f now _) ((completes_createAttempts f now _).weaken ?_)
    fun created => .bind (meets_markDispatched _ _) (completes_markDispatched ?_ _ _) fun _ =>
      .pure _
  · rintro d ⟨_, ⟨hi, hf, -⟩, rfl, rfl⟩
    exact ⟨hi, hplaces d hf⟩
  · rintro _ ⟨d, ⟨_, ⟨hi, hf, -⟩, rfl, rfl⟩, rfl, -⟩
    have hc : Tables.Changes (fun _ => False) d.tables
        ((Subscription.matching (d.tables.subscriptionsOf f.applicationId true) f).foldl
          (Data.dispatchTo f now) d).tables := by
      refine Data.changes_foldl f.applicationId f.eventId (fun d s hp => ?_) _ d (hplaces d hf)
      exact Data.changes_offer d.tables _ (AttemptRow.isFresh_new ..) hp
    exact hc.invariant hi fun _ _ h => h.intact

/-- A submission completes if the event as it is stored and the subscriptions that may receive it can
be read. -/
theorem completes_ingest (e : Event) (now : Int) :
    Completes (fun d => d.tables.Intact ∧
        (∀ f, d.tables.event? e.eventId = some f → f.check = .ok f) ∧
        ∀ s ∈ d.tables.subscriptionsOf (d.asStored e).applicationId true, s.readRow = .ok s)
      (ingest e now) := by
  unfold ingest
  refine .bind (meets_route e now).atomically (.atomically (meets_route e now) ?_ ?_) fun done => ?_
  · refine .bind (meets_undispatchedEvent? e)
      (completes_undispatchedEvent? (fun _ h => h.1) fun _ h => h.2.1) fun found => ?_
    cases found with
    | none => exact .pure none
    | some f =>
      refine (completes_fanOut f now).weaken ?_
      rintro d' ⟨d, ⟨hi, -, hs⟩, hids, hfound⟩
      obtain ⟨rfl, rfl⟩ := Data.of_undispatchedEvent? hids hfound
      refine ⟨hi.registers (d.tables.registers_insertEvent e), ?_, ?_⟩
      · exact (Data.mem_of_event? (d.tables.event?_insertEvent e)).1
      · rw [Tables.subscriptionsOf, (d.insertEvent_frame e).2]
        exact hs
  · rintro d _ _ ⟨hi, -⟩ ⟨rfl, -⟩
    have hc : Tables.Changes (fun _ => False) d.tables (d.ingest e now).tables :=
      d.changes_ingest e now
    exact (hc.invariant hi fun _ _ h => h.intact).answered.dangling
  · cases done with
    | none => exact .pure []
    | some r => exact .of_succeeds ((succeeds_log _ _ _ _).bind fun _ => succeeds_pure _)

end Engine
end WebhookDelivery
