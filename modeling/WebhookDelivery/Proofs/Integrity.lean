import WebhookDelivery.Proofs.References
import WebhookDelivery.Proofs.WorkerRuns

/-!
# WebhookDelivery.Proofs.Integrity

All references between rows lead somewhere, and stay within one application.

* `Reached onFile known s`: a store to which dispatches, replays, workers and saves lead, and the
  attempts that have been handed out on the way. Another worker may act between any two of the calls
  of which a worker's step is made.
* `Tables.Linked`: responses are of the application of their attempt, and attempts refer to responses
  to themselves. `Call.linked_after` says that faithful calls keep this.
* `Engine.Finds pre body`: where `pre` holds, `body` does not miss the rows of an attempt.
* `references_lead_within_application`: the result about all stores that are reached.
-/

namespace WebhookDelivery

/-! ## Links between attempts and responses -/

namespace Tables

/-- The attempt of a record is there, and is of the application that the record names. -/
def Knows (t : Tables) (a : Attempt) : Prop :=
  ∃ r ∈ t.attempts, r.attemptId = a.attemptId ∧ r.applicationId = a.applicationId

structure Linked (t : Tables) : Prop where
  responses : ∀ x ∈ t.responses, ∃ r ∈ t.attempts,
    r.attemptId = x.attemptId ∧ r.applicationId = x.applicationId
  references : ∀ r ∈ t.attempts, ∀ id, r.responseId = some id →
    ∃ x ∈ t.responses, x.responseId = id ∧ x.attemptId = r.attemptId

theorem linked_empty : empty.Linked :=
  ⟨fun _ h => absurd h List.not_mem_nil, fun _ h => absurd h List.not_mem_nil⟩

end Tables

/-- The claim ends with a response to its own attempt. -/
structure Ending.Fits (e : Ending) (t : Tables) : Prop where
  attemptId : e.response.attemptId = e.token.attemptId
  attempt : ∃ r ∈ t.attempts,
    r.attemptId = e.response.attemptId ∧ r.applicationId = e.response.applicationId

namespace Tables

variable {ends : Ending → Prop} {t t' : Tables}

/-- An attempt stays, with what it is an attempt of. -/
theorem Change.keeps_attempt (h : Change ends t t') (hs : t.Indexed) {r : AttemptRow}
    (hr : r ∈ t.attempts) : ∃ r' ∈ t'.attempts,
      r'.attemptId = r.attemptId ∧ r'.applicationId = r.applicationId := by
  rcases h.attempts hs with ⟨new, -, -, ha⟩ | ⟨f, ha, hf⟩
  · exact ⟨r, ha ▸ List.mem_append_left _ hr, rfl, rfl⟩
  · obtain ⟨hi, happ, -⟩ := (hf r hr).frame
    exact ⟨f r, ha ▸ List.mem_map_of_mem hr, hi, happ⟩

theorem Change.knows (h : Change ends t t') (hs : t.Indexed) {a : Attempt} (hk : t.Knows a) :
    t'.Knows a := by
  obtain ⟨r, hr, hi, happ⟩ := hk
  obtain ⟨r', hr', hi', happ'⟩ := h.keeps_attempt hs hr
  exact ⟨r', hr', hi'.trans hi, happ'.trans happ⟩

theorem Linked.offer (h : t.Linked) {r : AttemptRow} (fresh : r.IsFresh) : (t.offer r).Linked := by
  unfold Tables.offer
  split
  · exact h
  · refine ⟨fun x hx => ?_, fun y hy id hid => ?_⟩
    · obtain ⟨old, ho, hold⟩ := h.responses x hx
      exact ⟨old, List.mem_append_left _ ho, hold⟩
    · rcases List.mem_append.mp hy with hy | hy
      · exact h.references y hy id hid
      · rw [List.mem_singleton.mp hy, fresh.responseId] at hid
        cases hid

theorem Linked.claim (h : t.Linked) (c : Claimant) (now : Int) : (t.claim c now).2.Linked := by
  unfold Tables.claim
  split
  · exact h
  · refine ⟨fun x hx => ?_, fun y hy id hid => ?_⟩
    · obtain ⟨r, hr, hi, happ⟩ := h.responses x hx
      refine ⟨_, mem_updateRows.mpr ⟨r, hr, rfl⟩, ?_⟩
      split <;> exact ⟨hi, happ⟩
    · obtain ⟨r, hr, rfl⟩ := mem_updateRows.mp hy
      have hold : r.responseId = some id := by split at hid <;> exact hid
      obtain ⟨x, hx, hxi, hxa⟩ := h.references r hr id hold
      refine ⟨x, hx, hxi, hxa.trans ?_⟩
      split <;> rfl

/-- Only the rows of the claim refer to the new response, which is to their attempt. -/
theorem Linked.finish (h : t.Linked) (hs : t.Indexed) {e : Ending} (he : e.Fits t)
    (hf : t.finish? e = .ok t') : t'.Linked := by
  obtain rfl := finish?_eq_ok hs.referencesUnchecked hf
  have hframe : ∀ r ∈ t.attempts, ∃ r' ∈ updateRows e.token.holds
      (e.outcome.apply e.response.responseId) t.attempts,
      r'.attemptId = r.attemptId ∧ r'.applicationId = r.applicationId := by
    intro r hr
    refine ⟨_, mem_updateRows.mpr ⟨r, hr, rfl⟩, ?_⟩
    obtain ⟨hi, happ, -⟩ := e.outcome.apply_frame e.response.responseId r
    split
    · exact ⟨hi, happ⟩
    · exact ⟨rfl, rfl⟩
  refine ⟨fun x hx => ?_, fun y hy id hid => ?_⟩
  · have hold : ∃ r ∈ t.attempts,
        r.attemptId = x.attemptId ∧ r.applicationId = x.applicationId := by
      rcases List.mem_append.mp hx with hx | hx
      · exact h.responses x hx
      · rw [List.mem_singleton.mp hx]
        exact he.attempt
    obtain ⟨r, hr, hi, happ⟩ := hold
    obtain ⟨r', hr', hi', happ'⟩ := hframe r hr
    exact ⟨r', hr', hi'.trans hi, happ'.trans happ⟩
  · obtain ⟨r, hr, rfl⟩ := mem_updateRows.mp hy
    by_cases hh : e.token.holds r
    · rw [if_pos hh, Outcome.apply_responseId, Option.some.injEq] at hid
      refine ⟨e.response.toRow, List.mem_append_right _ List.mem_cons_self, hid, ?_⟩
      rw [if_pos hh, (e.outcome.apply_frame _ r).1]
      exact he.attemptId.trans (ClaimToken.holds_iff.mp hh).1.symm
    · rw [if_neg hh] at hid ⊢
      obtain ⟨x, hx, hxi, hxa⟩ := h.references r hr id hid
      exact ⟨x, List.mem_append_left _ hx, hxi, hxa⟩

theorem Change.linked (h : Change ends t t') (hs : t.Indexed) (hl : t.Linked)
    (he : ∀ e, ends e → e.Fits t) : t'.Linked := by
  cases h with
  | edit h =>
    cases h with
    | register h =>
      refine ⟨?_, ?_⟩
      · rw [h.attempts, h.responses]
        exact hl.responses
      · rw [h.attempts, h.responses]
        exact hl.references
    | claim c now => exact hl.claim c now
    | finish e hends _ h => exact hl.finish hs (he e hends) h
  | offer r fresh _ => exact hl.offer fresh

end Tables

/-! ## What is handed out -/

namespace Operation

/-- An answer without claims hands out nothing. -/
theorem meets_no_handedOut {α : Type} {body : Engine α} {post : Data → α → Data → Prop}
    (h : body.Meets post) {answer : α → Answer} (ha : ∀ x, (answer x).handedOut = []) :
    (answer <$> body).Meets fun d b _ => ∀ a ∈ b.handedOut, d.tables.Knows a := by
  refine (h.map answer).mono ?_
  rintro d _ d' ⟨x, -, rfl⟩ a hm
  rw [ha] at hm
  exact absurd hm List.not_mem_nil

theorem knows_of_loads {t t' : Tables} {claim : Claim} {r r' : AttemptRow} (hl : claim.Loads t' r')
    (hr : r ∈ t.attempts) (hi : r'.attemptId = r.attemptId)
    (happ : r'.applicationId = r.applicationId) : t.Knows claim.attempt := by
  obtain ⟨hri, hra, -⟩ := AttemptRow.read_eq_ok hl.attempt
  exact ⟨r, hr, (hri.trans hi).symm, (hra.trans happ).symm⟩

/-- The attempts that an operation hands out are there. -/
theorem meets_handedOut (o : Operation) :
    o.run.Meets fun d b _ => ∀ a ∈ b.handedOut, d.tables.Knows a := by
  cases o with
  | storeEvent e => exact meets_no_handedOut (Engine.meets_insertEvent e) fun _ => rfl
  | ingest e now => exact meets_no_handedOut (Engine.meets_ingest e now) fun _ => rfl
  | replay eventId application subscription now =>
    exact meets_no_handedOut (Engine.meets_replay eventId application subscription now) fun _ => rfl
  | claim c now =>
    refine ((Engine.meets_claimNext c now).map _).mono ?_
    rintro d _ d' ⟨found, ⟨-, hf⟩, rfl⟩ a hm
    cases hn : d.tables.nextClaim? c now with
    | none =>
      rw [hn] at hf
      subst hf
      exact absurd hm List.not_mem_nil
    | some r =>
      rw [hn] at hf
      obtain ⟨claim, rfl, hl⟩ := hf
      obtain rfl := List.mem_singleton.mp hm
      exact knows_of_loads hl (Tables.mem_of_nextClaim? hn).1 rfl rfl
  | findStale before limit =>
    refine ((Engine.meets_findStale before limit).map _).mono ?_
    rintro _ _ d ⟨claims, ⟨hall, rfl⟩, rfl⟩ a hm
    obtain ⟨claim, hc, rfl⟩ := List.mem_map.mp hm
    obtain ⟨n, hn, rfl⟩ := List.getElem_of_mem hc
    have hlen : n < (d.tables.staleClaims before limit).length := by
      rw [hall.length_eq]
      exact hn
    have hl := hall.get hlen hn
    have hr := Tables.mem_of_mem_limited (List.getElem_mem hlen)
    rw [List.mem_mergeSort] at hr
    exact knows_of_loads hl (List.mem_of_mem_filter hr) rfl rfl
  | finalize claimed r now retryAt =>
    exact meets_no_handedOut (Engine.meets_finalize claimed r now retryAt) fun _ => rfl
  | saveSubscription s => exact meets_no_handedOut (Engine.meets_saveSubscription s) fun _ => rfl
  | setEnabled id enabled =>
    exact meets_no_handedOut (Engine.meets_setSubscriptionEnabled id enabled) fun _ => rfl

end Operation

namespace Call

variable {x : Call} {known : Attempt → Prop}

theorem HandsOut.knows {a : Attempt} (h : x.HandsOut a) : x.before.tables.Knows a := by
  obtain ⟨b, hb, ha⟩ := h
  exact (x.operation.meets_handedOut x.world).2 b hb a ha

theorem Ends.fits {e : Ending} (h : x.Ends e) (hc : x.operation.Concludes known) {t : Tables}
    (hk : ∀ a, known a → t.Knows a) : e.Fits t := by
  obtain ⟨a, -, he⟩ := h
  unfold Operation.Ends at he
  split at he
  · rename_i claimed r now retryAt ho
    rw [ho] at hc
    obtain ⟨hknown, hr⟩ := hc
    obtain ⟨htok, -, rfl⟩ := he
    obtain ⟨pickedAt, -, htok⟩ := Option.map_eq_some_iff.mp htok
    obtain ⟨row, hm, hi, happ⟩ := hk claimed hknown
    refine ⟨?_, row, hm, hi.trans hr.attemptId.symm, happ.trans hr.applicationId.symm⟩
    rw [hr.attemptId, ← htok]
  · exact he.elim

/-- What a call knows it also knows of afterwards, and it knows what it has handed out. -/
theorem linked_after (hi : x.before.IsIdle) (hs : x.before.tables.Sound)
    (hl : x.before.tables.Linked) (hk : ∀ a, known a → x.before.tables.Knows a)
    (hc : x.operation.Concludes known) :
    x.after.tables.Linked ∧ ∀ a, known a ∨ x.HandsOut a → x.after.tables.Knows a := by
  have hall : ∀ a, known a ∨ x.HandsOut a → x.before.tables.Knows a := by
    rintro a (ha | ha)
    · exact hk a ha
    · exact ha.knows
  have hinv : x.after.tables.Sound ∧ x.after.tables.Linked ∧
      ∀ a, known a ∨ x.HandsOut a → x.after.tables.Knows a := by
    refine (changes hi).invariant (I := fun t => t.Sound ∧ t.Linked ∧
      ∀ a, known a ∨ x.HandsOut a → t.Knows a) ⟨hs, hl, hall⟩ ?_
    rintro t t' h ⟨hts, htl, htk⟩
    refine ⟨h.sound hts, h.linked hts.toIndexed htl fun e he => he.fits hc fun a ha => htk a (.inl ha),
      fun a ha => h.knows hts.toIndexed (htk a ha)⟩
  exact hinv.2

end Call

/-- A faithful run keeps references within their application. -/
theorem Run.linked {s t : Store} {calls : List Call} {known : Attempt → Prop} (h : Run s calls t)
    (hi : s.IsIdle) (hs : s.tables.Sound) (hl : s.tables.Linked)
    (hk : ∀ a, known a → s.tables.Knows a) (hf : Faithful known calls) : t.tables.Linked := by
  induction h generalizing known with
  | nil => exact hl
  | @cons x rest _ _ ih =>
    obtain ⟨hl', hk'⟩ := Call.linked_after hi hs hl hk hf.1
    exact ih (Call.isIdle_after hi) (Call.sound_after hi hs) hl' hk' hf.2

/-! ## Missing rows -/

/-- The event and the subscription of a delivery are there. -/
structure Tables.Delivers (t : Tables) (event subscription : Uuid) : Prop where
  event : (t.event? event).isSome
  subscription : (t.subscription? subscription).isSome

theorem Tables.Places.delivers {t : Tables} {application event subscription : Uuid}
    (h : t.Places application event subscription) : t.Delivers event subscription := by
  obtain ⟨e, he, hei, -⟩ := h.event
  obtain ⟨s, hs, hsi, -⟩ := h.subscription
  refine ⟨?_, ?_⟩
  · rw [event?, List.find?_isSome]
    exact ⟨e, he, beq_iff_eq.mpr hei⟩
  · rw [subscription?, List.find?_isSome]
    exact ⟨s, hs, beq_iff_eq.mpr hsi⟩

theorem Tables.Delivers.congr {t t' : Tables} {event subscription : Uuid}
    (h : t.Delivers event subscription) (he : t'.events = t.events)
    (hs : t'.subscriptions = t.subscriptions) : t'.Delivers event subscription := by
  refine ⟨?_, ?_⟩
  · rw [event?, he]
    exact h.event
  · rw [subscription?, hs]
    exact h.subscription

/-- What is reported is a missing row only if a row is missing. -/
theorem OperationError.eq_missingRows_of_reported {e : OperationError} {id : Uuid}
    (h : e.reported = .missingRows id) : e = .missingRows id := by
  cases e with
  | statement e =>
    unfold reported at h
    dsimp only at h
    split at h <;> cases h
  | _ => exact h

namespace Engine

variable {α β : Type} {pre : Data → Prop} {body : Engine α}

def Finds (pre : Data → Prop) (body : Engine α) : Prop :=
  ∀ w, pre w.data → ∀ id, (body w).1 ≠ .error (.missingRows id)

namespace Finds

theorem weaken {pre' : Data → Prop} (h : Finds pre body) (hp : ∀ d, pre' d → pre d) :
    Finds pre' body :=
  fun w hw => h w (hp _ hw)

theorem pure (a : α) : Finds pre (pure a) := fun _ _ _ h => by cases h

theorem ofExcept {ε : Type} {wrap : ε → OperationError} (hw : ∀ e id, wrap e ≠ .missingRows id)
    (r : Except ε α) : Finds pre (ofExcept wrap r) := by
  cases r with
  | ok a => exact .pure a
  | error e =>
    intro w _ id h
    have he : Except.error (wrap e) = (.error (.missingRows id) : Except OperationError α) := h
    rw [Except.error.injEq] at he
    exact hw e id he

theorem map (f : α → β) (h : Finds pre body) : Finds pre (f <$> body) := by
  intro w hw id
  have hb := h w hw id
  rw [map_apply]
  cases hr : body w with
  | mk r v =>
    rw [hr] at hb
    cases r with
    | error e =>
      intro h
      exact hb (by cases h; rfl)
    | ok a =>
      intro h
      cases h

theorem bind {x : Engine α} {f : α → Engine β} {post : Data → α → Data → Prop} (hm : Meets x post)
    (hx : Finds pre x) (hf : ∀ a, Finds (fun d' => ∃ d, pre d ∧ post d a d') (f a)) :
    Finds pre (x >>= f) := by
  intro w hw id
  have hx := hx w hw id
  have hp := (hm w).2
  rw [bind_apply]
  cases hr : x w with
  | mk r v =>
    rw [hr] at hx hp
    cases r with
    | error e =>
      intro h
      exact hx (by cases h; rfl)
    | ok a => exact hf a v ⟨_, hw, hp a rfl⟩ id

theorem atomically (h : Finds pre body) : Finds pre (atomically body) := by
  intro w hw id
  unfold Engine.atomically
  split
  · intro h
    cases h
  · split
    · exact h w hw id
    · have hb := h { w with store := { w.store with inTransaction := true } } hw id
      cases hr : body { w with store := { w.store with inTransaction := true } } with
      | mk r v =>
        rw [hr] at hb
        cases r with
        | error e =>
          intro h
          have he : e.reported = .missingRows id := by
            simp only [settle, Except.error.injEq] at h
            exact h
          exact hb (by rw [OperationError.eq_missingRows_of_reported he])
        | ok a =>
          simp only [settle]
          split
          · intro h
            cases h
          · intro h
            cases h

theorem mapM {f : α → Engine β} (hm : ∀ a, Meets (f a) fun d _ d' => d' = d) {rows : List α}
    (hf : ∀ a ∈ rows, Finds pre (f a)) : Finds pre (rows.mapM f) := by
  induction rows with
  | nil => exact .pure []
  | cons a rest ih =>
    rw [List.forall_mem_cons] at hf
    rw [List.mapM_cons]
    refine .bind (hm a) hf.1 fun b => ?_
    have hrest : Meets (rest.mapM f) fun d _ d' => d' = d :=
      (meets_mapM (p := fun _ _ _ => True) (fun a => (hm a).mono fun _ _ _ h => ⟨trivial, h⟩)
        rest).mono fun _ _ _ h => h.2
    refine .bind hrest ((ih hf.2).weaken ?_) fun _ => .pure _
    rintro _ ⟨d, hd, rfl⟩
    exact hd

end Finds

theorem finds_touch (name : TableName) : Finds pre (touch name) := by
  refine .bind meets_tables (fun _ _ _ h => by cases h) fun t => ?_
  split
  · intro _ _ _ h
    cases h
  · exact .pure ()

theorem finds_checkInteger (n : Int) : Finds pre (checkInteger n) := by
  unfold checkInteger
  split
  · exact .pure ()
  · intro _ _ _ h
    cases h

theorem finds_query {γ : Type} (name : TableName) (query : Tables → γ) :
    Finds pre (atomically do touch name; return query (← tables)) :=
  .atomically (.bind (meets_touch name) (finds_touch name) fun _ =>
    .bind meets_tables (fun _ _ _ h => by cases h) fun _ => .pure _)

theorem finds_getEvent (id : Uuid) (application : Option Uuid) :
    Finds pre (getEvent id application) := by
  refine .bind (meets_query .event _) (finds_query .event _) fun row => ?_
  cases row with
  | none => exact .pure none
  | some e => exact .map some (.ofExcept (fun _ _ h => by cases h) _)

theorem finds_getSubscription (id : Uuid) (application : Option Uuid) :
    Finds pre (getSubscription id application) := by
  refine .bind (meets_query .subscription _) (finds_query .subscription _) fun row => ?_
  cases row with
  | none => exact .pure none
  | some s => exact .map some (.ofExcept (fun _ _ h => by cases h) _)

theorem finds_loadClaim (a : Attempt) :
    Finds (fun d => d.tables.Delivers a.eventId a.subscriptionId) (loadClaim a) := by
  refine .bind (meets_getEvent _ _) (finds_getEvent _ _) fun event =>
    .bind (meets_getSubscription _ _) (finds_getSubscription _ _) fun subscription => ?_
  rintro w ⟨_, ⟨d, hd, he, hw₁⟩, hs, hw₂⟩ id
  subst hw₁
  rw [inScope_none] at he hs
  obtain ⟨e, hev⟩ := Option.isSome_iff_exists.mp hd.event
  obtain ⟨s, hsub⟩ := Option.isSome_iff_exists.mp hd.subscription
  rw [he, hev, hs, hsub]
  intro h
  cases h

theorem finds_readClaim (r : AttemptRow) :
    Finds (fun d => d.tables.Delivers r.eventId r.subscriptionId) (readAttempt r >>= loadClaim) := by
  refine .bind (meets_readAttempt r) (.ofExcept (fun _ _ h => by cases h) _) fun a => ?_
  refine (finds_loadClaim a).weaken ?_
  rintro _ ⟨d, hd, hr, rfl⟩
  obtain ⟨-, -, he, hs, -⟩ := AttemptRow.read_eq_ok hr
  rw [he, hs]
  exact hd

/-- A claim does not miss the rows of an attempt where those of all attempts are there. -/
theorem finds_claimNext (c : Claimant) (now : Int) :
    Finds (fun d => ∀ r ∈ d.tables.attempts, d.tables.Delivers r.eventId r.subscriptionId)
      (claimNext c now) := by
  unfold claimNext
  refine .atomically (.bind (meets_touch _) (finds_touch _) fun _ =>
    .bind (meets_touch _) (finds_touch _) fun _ =>
    .bind (meets_change _) (fun _ _ _ h => by cases h) fun row => ?_)
  cases row with
  | none => exact .pure none
  | some r =>
    change Finds _ (readAttempt r >>= fun a => loadClaim a >>= fun claim => pure (some claim))
    rw [← bind_assoc]
    refine .bind (meets_readClaim r) ((finds_readClaim r).weaken ?_) fun _ => .pure _
    rintro d' ⟨d, ⟨_, ⟨_, hd, rfl⟩, rfl⟩, hrow, -⟩
    have ht : d'.tables = (d.tables.claim c now).2 := congrArg Prod.snd hrow
    have hr : some r = (d.tables.claim c now).1 := congrArg Prod.fst hrow
    obtain ⟨he, hs, -⟩ := d.tables.claim_frame c now
    rw [← ht] at he hs
    unfold Tables.claim at hr
    split at hr
    · cases hr
    · rename_i old hold
      cases hr
      exact (hd old (Tables.mem_of_nextClaim? hold).1).congr he hs

theorem finds_findStale (before limit : Int) :
    Finds (fun d => ∀ r ∈ d.tables.attempts, d.tables.Delivers r.eventId r.subscriptionId)
      (findStale before limit) := by
  unfold findStale
  refine .atomically (.bind (meets_touch _) (finds_touch _) fun _ =>
    .bind (meets_checkInteger _) (finds_checkInteger _) fun _ =>
    .bind meets_tables (fun _ _ _ h => by cases h) fun t => ?_)
  refine .mapM (fun r => (meets_readClaim r).mono fun _ _ _ h => h.2) fun r hr =>
    (finds_readClaim r).weaken ?_
  rintro _ ⟨_, ⟨_, ⟨d, hd, rfl⟩, rfl⟩, rfl, rfl⟩
  have hr := Tables.mem_of_mem_limited hr
  rw [List.mem_mergeSort] at hr
  exact hd r (List.mem_of_mem_filter hr)

end Engine

/-! ## Reachable stores -/

inductive Reached (onFile : Bool) : Store → (Attempt → Prop) → Prop
  | create : Reached onFile (.create onFile) fun _ => False
  | call {known : Attempt → Prop} (x : Call) (h : Reached onFile x.before known)
      (concludes : x.operation.Concludes known) :
      Reached onFile x.after fun a => known a ∨ x.HandsOut a
  | process {known : Attempt → Prop} (u : WorkerUnit) (claim : Claim) (w : World)
      (h : Reached onFile w.store known) (hk : known claim.attempt) :
      Reached onFile (u.process claim w).2.store known
  | reap {known : Attempt → Prop} (u : WorkerUnit) (now : Int) (w : World)
      (h : Reached onFile w.store known) : Reached onFile (u.reap now w).2.store known
  | runOnce {known : Attempt → Prop} (u : WorkerUnit) (w : World)
      (h : Reached onFile w.store known) : Reached onFile (u.runOnce w).2.2.store known
  | dispatchPending {known : Attempt → Prop} (now limit : Int) (w : World)
      (h : Reached onFile w.store known) :
      Reached onFile (Engine.dispatchPending now limit w).2.store known

namespace Reached

variable {onFile : Bool} {s t : Store} {known : Attempt → Prop}

/-- A run of single calls that leads to a store, and hands out what is known there. -/
theorem run (h : Reached onFile s known) : ∃ calls, Run (.create onFile) calls s ∧
    Faithful (fun _ => False) calls ∧ ∀ a, known a → ∃ x ∈ calls, x.HandsOut a := by
  -- A step that is faithful to what is known goes on with the run that led to it.
  have extend : ∀ {known : Attempt → Prop} {s t : Store} {calls more : List Call},
      Run (.create onFile) calls s → Faithful (fun _ => False) calls →
      (∀ a, known a → ∃ x ∈ calls, x.HandsOut a) → Run s more t → Faithful known more →
      ∃ all, Run (.create onFile) all t ∧ Faithful (fun _ => False) all ∧
        ∀ a, known a ∨ (∃ x ∈ more, x.HandsOut a) → ∃ x ∈ all, x.HandsOut a := by
    intro known s t calls more hr hf hk hm hfm
    refine ⟨calls ++ more, hr.append hm, hf.append (hfm.mono fun a ha => .inr (hk a ha)), ?_⟩
    rintro a (ha | ⟨x, hx, ha⟩)
    · obtain ⟨x, hx, ha⟩ := hk a ha
      exact ⟨x, List.mem_append_left _ hx, ha⟩
    · exact ⟨x, List.mem_append_right _ hx, ha⟩
  induction h with
  | create => exact ⟨[], .nil _, trivial, fun _ h => h.elim⟩
  | call x _ concludes ih =>
    obtain ⟨calls, hr, hf, hk⟩ := ih
    obtain ⟨all, hall, hfall, hkall⟩ := extend hr hf hk (.cons (.nil x.after)) ⟨concludes, trivial⟩
    exact ⟨all, hall, hfall, fun a ha => hkall a (ha.imp_right fun h => ⟨x, by simp, h⟩)⟩
  | process u claim w _ hclaim ih =>
    obtain ⟨calls, hr, hf, hk⟩ := ih
    obtain ⟨⟨more, hm, -, hfm⟩, -⟩ := u.performs_process hclaim w
    obtain ⟨all, hall, hfall, hkall⟩ := extend hr hf hk hm hfm
    exact ⟨all, hall, hfall, fun a ha => hkall a (.inl ha)⟩
  | @reap known u now w _ ih =>
    obtain ⟨calls, hr, hf, hk⟩ := ih
    obtain ⟨⟨more, hm, -, hfm⟩, -⟩ := u.performs_reap known now w
    obtain ⟨all, hall, hfall, hkall⟩ := extend hr hf hk hm hfm
    exact ⟨all, hall, hfall, fun a ha => hkall a (.inl ha)⟩
  | @runOnce known u w _ ih =>
    obtain ⟨calls, hr, hf, hk⟩ := ih
    obtain ⟨more, hm, -, hfm⟩ := u.run_runOnce known w
    obtain ⟨all, hall, hfall, hkall⟩ := extend hr hf hk hm hfm
    exact ⟨all, hall, hfall, fun a ha => hkall a (.inl ha)⟩
  | @dispatchPending known now limit w _ ih =>
    obtain ⟨calls, hr, hf, hk⟩ := ih
    obtain ⟨⟨more, hm, -, hfm⟩, -⟩ := Engine.performs_dispatchPending known now limit w
    obtain ⟨all, hall, hfall, hkall⟩ := extend hr hf hk hm hfm
    exact ⟨all, hall, hfall, fun a ha => hkall a (.inl ha)⟩

/-- The calls of a faithful run lead on from a store that is reached. -/
theorem of_run {calls : List Call} (h : Run s calls t) (hs : Reached onFile s known)
    (hf : Faithful known calls) : ∃ known', Reached onFile t known' := by
  induction h generalizing known with
  | nil => exact ⟨known, hs⟩
  | cons _ ih => exact ih (.call _ hs hf.1) hf.2

end Reached

/-- In every store that is reached, the event and the subscription of an attempt are there and are of
its application; the attempt of a response is there and is of its application; a response to which
an attempt refers is there and is to this attempt. So no claim misses the rows of its attempt. -/
theorem references_lead_within_application {onFile : Bool} {s : Store} {known : Attempt → Prop}
    (h : Reached onFile s known) :
    (∀ r ∈ s.tables.attempts, ∃ e u, s.tables.event? r.eventId = some e ∧
      s.tables.subscription? r.subscriptionId = some u ∧
      e.applicationId = r.applicationId ∧ u.applicationId = r.applicationId) ∧
    (∀ x ∈ s.tables.responses, ∃ r, s.tables.attempt? x.attemptId = some r ∧
      r.applicationId = x.applicationId) ∧
    (∀ r ∈ s.tables.attempts, ∀ id, r.responseId = some id →
      ∃ x, s.tables.response? id = some x ∧ x.attemptId = r.attemptId) ∧
    ∀ w : World, w.store = s → ∀ id,
      (∀ c now, (Engine.claimNext c now w).1 ≠ .error (.missingRows id)) ∧
      ∀ before limit, (Engine.findStale before limit w).1 ≠ .error (.missingRows id) := by
  obtain ⟨calls, hrun, hfaith, -⟩ := h.run
  have hidle : (Store.create onFile).IsIdle := Store.isIdle_create onFile
  have hintact : s.tables.Intact := hrun.intact hidle Tables.intact_empty
  have hlinked : s.tables.Linked :=
    hrun.linked hidle Tables.sound_empty Tables.linked_empty (fun _ ha => ha.elim) hfaith
  have hids := hintact.sound.toIndexed
  refine ⟨fun r hr => ?_, fun x hx => ?_, fun r hr id hid => ?_, fun w hw id => ?_⟩
  · obtain ⟨⟨e, he, hei, hea⟩, ⟨u, hu, hui, hua⟩⟩ := hintact.sound.places r hr
    refine ⟨e, u, ?_, ?_, hea, hua⟩
    · rw [← hei]
      exact hintact.catalogued.event?_eq_some he
    · rw [← hui]
      exact hintact.catalogued.subscription?_eq_some hu
  · obtain ⟨r, hr, hi, happ⟩ := hlinked.responses x hx
    refine ⟨r, ?_, happ⟩
    rw [← hi]
    exact Tables.attempt?_eq_some hids hr
  · obtain ⟨x, hx, rfl, hxa⟩ := hlinked.references r hr id hid
    exact ⟨x, Tables.response?_eq_some hids hx, hxa⟩
  · have hd : ∀ r ∈ w.data.tables.attempts,
        w.data.tables.Delivers r.eventId r.subscriptionId := by
      subst hw
      exact fun r hr => (hintact.sound.places r hr).delivers
    exact ⟨fun c now => Engine.finds_claimNext c now w hd id,
      fun before limit => Engine.finds_findStale before limit w hd id⟩

/-- A delivery whose subscription is saved under another application before it ends. -/
def resaved : List Operation :=
  Sample.begin ++ [.claim Sample.claimant 1,
    .saveSubscription { Sample.subscription with applicationId := .ofNat 9 },
    .finalize (Sample.claimed 1) (Sample.response 11 none) 2 none]

/-- All that it leaves is of the application under which the subscription was saved first. -/
theorem resaved_references :
    ∃ r ∈ (Sample.world.runAll resaved).store.tables.attempts, r.responseId = some (.ofNat 11) ∧
      r.applicationId = Sample.application ∧
      (∃ u, (Sample.world.runAll resaved).store.tables.subscription? r.subscriptionId = some u ∧
        u.applicationId = r.applicationId) ∧
      ∃ x, (Sample.world.runAll resaved).store.tables.response? (.ofNat 11) = some x ∧
        x.attemptId = r.attemptId := by
  have hrun : Run (.create true) _ _ := run_inTurn Sample.world resaved
  have hfaith : Faithful (fun _ => False) (Call.inTurn Sample.world resaved) := by
    have hclaimed : (Call.inTurn Sample.world resaved)[3].HandsOut (Sample.claimed 1) :=
      ⟨_, rfl, List.mem_cons_self⟩
    refine ⟨trivial, trivial, trivial, trivial, trivial, ⟨?_, rfl, rfl⟩, trivial⟩
    exact .inl (.inr hclaimed)
  obtain ⟨known, h⟩ := Reached.of_run hrun .create hfaith
  obtain ⟨hattempts, -, hresponses, -⟩ := references_lead_within_application h
  have hr : ∃ r ∈ (Sample.world.runAll resaved).store.tables.attempts,
      r.responseId = some (.ofNat 11) ∧ r.applicationId = Sample.application :=
    ⟨_, List.mem_cons_self, rfl, rfl⟩
  obtain ⟨r, hm, hid, happ⟩ := hr
  obtain ⟨_, u, -, hu, -, hua⟩ := hattempts r hm
  exact ⟨r, hm, hid, happ, ⟨u, hu, hua⟩, hresponses r hm _ hid⟩

end WebhookDelivery
