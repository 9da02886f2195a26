import Mathlib.Data.List.Forall2
import WebhookDelivery.Proofs.Engine

/-!
# WebhookDelivery.Proofs.Operations

What the single operations of the store read and what they make of the tables.

* `meets_getEvent`, `meets_listSubscriptions` and the like: a query gives the rows as they are
  stored and changes nothing.
* `meets_claimNext`: the row that is due first becomes the claimant's.
* `meets_finalize`: a claim that is still held ends with a response, one that is not held changes
  nothing.
-/

namespace WebhookDelivery

namespace Tables

/-- The identifier of an attempt or its key is taken. -/
def isTaken (t : Tables) (r : AttemptRow) : Bool :=
  t.attempts.any fun old => old.attemptId == r.attemptId || old.dispatchKey == r.dispatchKey

/-- The tables after an attempt was offered, which is added at the end unless it is taken. -/
def offer (t : Tables) (r : AttemptRow) : Tables :=
  if t.isTaken r then t else { t with attempts := t.attempts ++ [r] }

theorem insertAttempt_eq_ok {t t' : Tables} {r : AttemptRow} {isNew : Bool}
    (h : t.insertAttempt r = .ok (isNew, t')) : t' = t.offer r ∧ isNew = !t.isTaken r := by
  unfold insertAttempt at h
  rw [← isTaken] at h
  unfold offer
  split at h
  · rename_i ht
    cases h
    simp [ht]
  · rename_i ht
    split at h
    · cases h
    · cases h
      simp [ht]

/-- The end of a claim that is not held changes nothing. -/
theorem release_of_not_held {t : Tables} {id : Uuid} {pickedAt : Int} {worker : Option String}
    {o : Outcome} {responseId : Uuid}
    (h : t.attempts.any (AttemptRow.holdsClaim id pickedAt worker) = false) :
    (t.release id pickedAt worker o responseId).2 = t := by
  simp only [release, updateRows_eq_self h]

end Tables

/-- A claim of the attempt of a row, with its event and its subscription as they are stored. -/
structure Claim.Loads (c : Claim) (t : Tables) (r : AttemptRow) : Prop where
  attempt : r.read = .ok c.attempt
  event : t.event? r.eventId = some c.event
  subscription : t.subscription? r.subscriptionId = some c.subscription

/-- What is kept of a row when it is read. -/
theorem AttemptRow.read_eq_ok {r : AttemptRow} {a : Attempt} (h : r.read = .ok a) :
    a.attemptId = r.attemptId ∧ a.applicationId = r.applicationId ∧ a.eventId = r.eventId ∧
      a.subscriptionId = r.subscriptionId ∧ a.pickedAt = r.pickedAt.map .utc ∧
      a.retryCount = r.retryCount ∧ a.workerName = r.workerName := by
  unfold read at h
  split at h
  · cases h
  · split at h
    · cases h
    · cases h
      exact ⟨rfl, rfl, rfl, rfl, rfl, rfl, rfl⟩

/-- An event that passes the check is given as it is. -/
theorem Event.eq_of_check {e x : Event} (h : e.check = .ok x) : x = e := by
  unfold check at h
  split at h
  · cases h
  · split at h
    · cases h
    · cases h
      rfl

/-- A subscription that can be read back is given as it is. -/
theorem Subscription.eq_of_readRow {s x : Subscription} (h : s.readRow = .ok x) : x = s := by
  unfold readRow at h
  split at h <;> cases h
  rfl

namespace Engine

/-! ## Reading -/

theorem meets_readEvent (e : Event) : Meets (readEvent e) fun d x d' => x = e ∧ d' = d := by
  refine (meets_ofExcept _ _).mono ?_
  rintro d x d' ⟨h, rfl⟩
  exact ⟨Event.eq_of_check h, rfl⟩

theorem meets_readSubscription (s : Subscription) :
    Meets (readSubscription s) fun d x d' => x = s ∧ d' = d := by
  refine (meets_ofExcept _ _).mono ?_
  rintro d x d' ⟨h, rfl⟩
  exact ⟨Subscription.eq_of_readRow h, rfl⟩

theorem meets_readAttempt (r : AttemptRow) :
    Meets (readAttempt r) fun d a d' => r.read = .ok a ∧ d' = d :=
  meets_ofExcept _ _

/-- Where single rows are read as they are, so are optional ones. -/
theorem meets_readRow {α : Type} {read : α → Engine α}
    (h : ∀ a, Meets (read a) fun d x d' => x = a ∧ d' = d) (row : Option α) :
    Meets (readRow read row) fun d x d' => x = row ∧ d' = d := by
  cases row with
  | none => exact .pure none
  | some a =>
    refine ((h a).map some).mono ?_
    rintro d b d' ⟨x, ⟨rfl, rfl⟩, rfl⟩
    exact ⟨rfl, rfl⟩

theorem meets_mapM {α β : Type} {read : α → Engine β} {p : Data → α → β → Prop}
    (h : ∀ a, Meets (read a) fun d x d' => p d a x ∧ d' = d) (rows : List α) :
    Meets (rows.mapM read) fun d xs d' => List.Forall₂ (p d) rows xs ∧ d' = d := by
  induction rows with
  | nil =>
    refine (Meets.pure []).mono ?_
    rintro d x d' ⟨rfl, rfl⟩
    exact ⟨.nil, rfl⟩
  | cons a rest ih =>
    rw [List.mapM_cons]
    refine ((h a).bind fun x => ih.bind fun xs => .pure (x :: xs)).mono ?_
    rintro d _ d' ⟨x, _, ⟨hx, rfl⟩, xs, _, ⟨hxs, rfl⟩, rfl, rfl⟩
    exact ⟨.cons hx hxs, rfl⟩

theorem meets_mapM_same {α : Type} {read : α → Engine α}
    (h : ∀ a, Meets (read a) fun d x d' => x = a ∧ d' = d) (rows : List α) :
    Meets (rows.mapM read) fun d xs d' => xs = rows ∧ d' = d := by
  refine (meets_mapM (p := fun _ a x => x = a) h rows).mono ?_
  rintro d xs d' ⟨hxs, rfl⟩
  refine ⟨?_, rfl⟩
  induction hxs with
  | nil => rfl
  | cons h _ ih => rw [h, ih]

/-- A query of a table that is there. -/
theorem meets_query {α : Type} (name : TableName) (query : Tables → α) :
    Meets (atomically do touch name; return query (← tables))
      fun d x d' => x = query d.tables ∧ d' = d := by
  refine (Meets.atomically ((meets_touch name).bind fun _ => meets_tables.bind fun t =>
    .pure (query t))).mono ?_
  rintro d x d' ⟨_, _, rfl, t, _, ⟨rfl, rfl⟩, rfl, rfl⟩
  exact ⟨rfl, rfl⟩

theorem inScope_none {α : Type} (owner : α → Uuid) (row : Option α) : inScope none owner row = row := by
  cases row <;> rfl

theorem meets_getEvent (id : Uuid) (application : Option Uuid) :
    Meets (getEvent id application) fun d x d' =>
      x = inScope application Event.applicationId (d.tables.event? id) ∧ d' = d := by
  refine ((meets_query .event _).bind fun row => meets_readRow meets_readEvent row).mono ?_
  rintro d x d' ⟨_, _, ⟨rfl, rfl⟩, rfl, rfl⟩
  exact ⟨rfl, rfl⟩

theorem meets_getSubscription (id : Uuid) (application : Option Uuid) :
    Meets (getSubscription id application) fun d x d' =>
      x = inScope application Subscription.applicationId (d.tables.subscription? id) ∧ d' = d := by
  refine ((meets_query .subscription _).bind fun row =>
    meets_readRow meets_readSubscription row).mono ?_
  rintro d x d' ⟨_, _, ⟨rfl, rfl⟩, rfl, rfl⟩
  exact ⟨rfl, rfl⟩

theorem meets_listSubscriptions (application : Uuid) (enabledOnly : Bool) :
    Meets (listSubscriptions application enabledOnly) fun d xs d' =>
      xs = d.tables.subscriptionsOf application enabledOnly ∧ d' = d := by
  refine ((meets_query .subscription _).bind fun rows =>
    meets_mapM_same meets_readSubscription rows).mono ?_
  rintro d x d' ⟨_, _, ⟨rfl, rfl⟩, rfl, rfl⟩
  exact ⟨rfl, rfl⟩

theorem meets_findOpenAttempt (event subscription : Uuid) :
    Meets (findOpenAttempt event subscription) fun d x d' =>
      (match d.tables.openAttempt? event subscription with
        | none => x = none
        | some r => ∃ a, r.read = .ok a ∧ x = some a) ∧ d' = d := by
  have hr : ∀ row : Option AttemptRow, Meets (readRow readAttempt row) fun d x d' =>
      (match row with
        | none => x = none
        | some r => ∃ a, r.read = .ok a ∧ x = some a) ∧ d' = d := by
    intro row
    cases row with
    | none => exact .pure none
    | some r =>
      refine ((meets_readAttempt r).map some).mono ?_
      rintro d x d' ⟨a, ⟨ha, rfl⟩, rfl⟩
      exact ⟨⟨a, ha, rfl⟩, rfl⟩
  refine ((meets_query .attempt _).bind hr).mono ?_
  rintro d x d' ⟨_, _, ⟨rfl, rfl⟩, h, rfl⟩
  exact ⟨h, rfl⟩

/-! ## Writing -/

theorem meets_insertEvent (e : Event) :
    Meets (insertEvent e) fun d b d' => (b, d'.tables) = d.tables.insertEvent e ∧ d'.ids = d.ids := by
  refine (Meets.atomically ((meets_touch _).bind fun _ => meets_change _)).mono ?_
  rintro d b d' ⟨_, _, rfl, h⟩
  exact h

theorem meets_markDispatched (id : Uuid) (time : Int) :
    Meets (markDispatched id time) fun d b d' =>
      (b, d'.tables) = d.tables.markDispatched id time ∧ d'.ids = d.ids := by
  refine (Meets.atomically ((meets_touch _).bind fun _ => meets_change _)).mono ?_
  rintro d b d' ⟨_, _, rfl, h⟩
  exact h

theorem meets_insertAttempt (a : Attempt) (key : String) :
    Meets (insertAttempt a key) fun d b d' =>
      d' = ⟨d.tables.offer (.new a key), d.ids⟩ ∧ b = !d.tables.isTaken (.new a key) := by
  refine (Meets.atomically ((meets_touch _).bind fun _ => (meets_checkInteger _).bind fun _ =>
    meets_statement _)).mono ?_
  rintro d b d' ⟨_, _, rfl, _, _, rfl, h, hi⟩
  obtain ⟨ht, hb⟩ := Tables.insertAttempt_eq_ok h
  exact ⟨by rw [← ht, ← hi], hb⟩

theorem meets_saveSubscription (s : Subscription) :
    Meets (saveSubscription s) fun d _ d' => d' = ⟨d.tables.saveSubscription s, d.ids⟩ := by
  refine (Meets.atomically ((meets_touch _).bind fun _ => meets_change _)).mono ?_
  rintro d b d' ⟨_, _, rfl, ht, hi⟩
  exact Data.ext (congrArg Prod.snd ht) hi

theorem meets_setSubscriptionEnabled (id : Uuid) (enabled : Bool) :
    Meets (setSubscriptionEnabled id enabled) fun d b d' =>
      (b, d'.tables) = d.tables.setEnabled id enabled ∧ d'.ids = d.ids := by
  refine (Meets.atomically ((meets_touch _).bind fun _ => meets_change _)).mono ?_
  rintro d b d' ⟨_, _, rfl, h⟩
  exact h

/-! ## Claims -/

theorem meets_loadClaim (a : Attempt) :
    Meets (loadClaim a) fun d c d' => c.attempt = a ∧ d.tables.event? a.eventId = some c.event ∧
      d.tables.subscription? a.subscriptionId = some c.subscription ∧ d' = d := by
  refine ((meets_getEvent _ _).bind fun event => (meets_getSubscription _ _).bind
    (q := fun s d c d' => c.attempt = a ∧ event = some c.event ∧ s = some c.subscription ∧ d' = d)
    fun s => ?_).mono ?_
  · cases event with
    | none => exact .throw _ _
    | some e =>
      cases s with
      | none => exact .throw _ _
      | some s =>
        refine (Meets.pure _).mono ?_
        rintro d c d' ⟨rfl, rfl⟩
        exact ⟨rfl, rfl, rfl, rfl⟩
  · rintro _ c d' ⟨_, d, ⟨rfl, rfl⟩, _, _, ⟨rfl, rfl⟩, ha, he, hs, rfl⟩
    rw [inScope_none] at he hs
    exact ⟨ha, he, hs, rfl⟩

theorem meets_readClaim (r : AttemptRow) :
    Meets (readAttempt r >>= loadClaim) fun d c d' => c.Loads d.tables r ∧ d' = d := by
  refine ((meets_readAttempt r).bind fun a => meets_loadClaim a).mono ?_
  rintro _ c d' ⟨a, d, ⟨ha, rfl⟩, rfl, he, hs, rfl⟩
  obtain ⟨-, -, hi, hj, -⟩ := AttemptRow.read_eq_ok ha
  exact ⟨⟨ha, hi ▸ he, hj ▸ hs⟩, rfl⟩

/-- The tables after a claim are those before it but for the row that is claimed. -/
theorem meets_claimNext (c : Claimant) (now : Int) :
    Meets (claimNext c now) fun d x d' => d' = ⟨(d.tables.claim c now).2, d.ids⟩ ∧
      match d.tables.nextClaim? c now with
      | none => x = none
      | some r => ∃ claim : Claim, x = some claim ∧ claim.Loads d'.tables (r.claimedBy c now) := by
  unfold claimNext
  refine (Meets.atomically ((meets_touch _).bind fun _ => (meets_touch _).bind fun _ =>
    (meets_change _).bind (q := fun row d x d' => d' = d ∧ match row with
      | none => x = none
      | some r => ∃ claim : Claim, x = some claim ∧ claim.Loads d.tables r) fun row => ?_)).mono ?_
  · cases row with
    | none => exact (Meets.pure _).mono fun _ _ _ h => ⟨h.2, h.1⟩
    | some r =>
      change Meets (readAttempt r >>= fun a => loadClaim a >>= fun claim => pure (some claim)) _
      rw [← bind_assoc]
      refine ((meets_readClaim r).bind fun claim => .pure (some claim)).mono ?_
      rintro _ x d' ⟨claim, d, ⟨hl, rfl⟩, rfl, rfl⟩
      exact ⟨rfl, claim, rfl, hl⟩
  · rintro _ x d' ⟨_, _, rfl, _, d, rfl, row, _, ⟨ht, hi⟩, rfl, h⟩
    have hd : d' = ⟨(d.tables.claim c now).2, d.ids⟩ := Data.ext (congrArg Prod.snd ht) hi
    refine ⟨hd, ?_⟩
    have hrow : row = (d.tables.claim c now).1 := congrArg Prod.fst ht
    unfold Tables.claim at hrow
    cases hn : d.tables.nextClaim? c now with
    | none =>
      rw [hn] at hrow
      subst hrow
      exact h
    | some r =>
      rw [hn] at hrow
      subst hrow
      exact h

theorem meets_findStale (before limit : Int) :
    Meets (findStale before limit) fun d claims d' =>
      List.Forall₂ (fun r (claim : Claim) => claim.Loads d.tables r)
        (d.tables.staleClaims before limit) claims ∧ d' = d := by
  unfold findStale
  refine (Meets.atomically ((meets_touch _).bind fun _ => (meets_checkInteger _).bind fun _ =>
    meets_tables.bind fun t => meets_mapM (p := fun d r claim => claim.Loads d.tables r)
      meets_readClaim (t.staleClaims before limit))).mono ?_
  rintro _ claims d' ⟨_, _, rfl, _, _, rfl, t, d, ⟨rfl, rfl⟩, h⟩
  exact h

/-! ## Outcomes -/

theorem meets_insertResponse (r : Response) :
    Meets (insertResponse r) fun d _ d' =>
      d.tables.insertResponse r = .ok d'.tables ∧ d'.ids = d.ids := by
  unfold insertResponse
  refine ((meets_touch _).bind (q := fun _ d _ d' =>
    d.tables.insertResponse r = .ok d'.tables ∧ d'.ids = d.ids) fun _ => ?_).mono ?_
  · have hs : Meets (do
        checkInteger r.elapsedMs
        statement fun t => (t.insertResponse r).map fun t => ((), t)) fun d _ d' =>
          d.tables.insertResponse r = .ok d'.tables ∧ d'.ids = d.ids := by
      refine ((meets_checkInteger _).bind fun _ => meets_statement _).mono ?_
      rintro _ x d' ⟨_, d, rfl, h, hi⟩
      refine ⟨?_, hi⟩
      cases ht : d.tables.insertResponse r with
      | error e => rw [ht] at h; cases h
      | ok t => rw [ht] at h; cases h; rfl
    split
    · refine ((meets_checkInteger _).bind fun _ => hs).mono ?_
      rintro d x d' ⟨_, _, rfl, h⟩
      exact h
    · exact hs
  · rintro _ x d' ⟨_, d, rfl, h⟩
    exact h

/-- Whether a claim is held, and what its end leaves: nothing where it is not held, and else the
outcome on its row and the response. -/
theorem meets_finalize (claimed : Attempt) (r : Response) (now : Int) (retryAt : Option Int) :
    Meets (finalize claimed r now retryAt) fun d held d' => ∃ pickedAt, claimed.pickedAt = some pickedAt ∧
      held = d.tables.attempts.any
        (AttemptRow.holdsClaim claimed.attemptId pickedAt.micros claimed.workerName) ∧
      if held then
        ((d.tables.release claimed.attemptId pickedAt.micros claimed.workerName
          (outcomeOf r now retryAt) r.responseId).2).insertResponse r = .ok d'.tables ∧ d'.ids = d.ids
      else d' = d := by
  unfold finalize
  cases hp : claimed.pickedAt with
  | none => exact .throw _ _
  | some pickedAt =>
    refine (Meets.atomically ((meets_touch _).bind fun _ => (meets_change _).bind
      (q := fun held d x d' => x = held ∧ if held then
        d.tables.insertResponse r = .ok d'.tables ∧ d'.ids = d.ids else d' = d) fun held => ?_)).mono ?_
    · cases held with
      | true =>
        refine ((meets_insertResponse r).bind fun _ => .pure true).mono ?_
        rintro d x _ ⟨_, d', h, rfl, rfl⟩
        exact ⟨rfl, by simpa using h⟩
      | false =>
        refine ((meets_log _ _ _ _).bind fun _ => .pure false).mono ?_
        rintro d x _ ⟨_, d', rfl, rfl, rfl⟩
        exact ⟨rfl, by simp⟩
    · rintro _ x d' ⟨_, d, rfl, held, d₁, ⟨ht, hi⟩, rfl, h⟩
      refine ⟨pickedAt, rfl, congrArg Prod.fst ht, ?_⟩
      have hd : d₁ = ⟨_, d.ids⟩ := Data.ext (congrArg Prod.snd ht) hi
      subst hd
      cases x with
      | true => exact h
      | false =>
        rw [if_neg Bool.false_ne_true] at h ⊢
        rw [h]
        exact Data.ext (Tables.release_of_not_held (congrArg Prod.fst ht).symm) rfl

/-- The end of a claim that is not held is refused and changes nothing. -/
theorem finalize_of_not_held {w : World} (ho : w.store.isOpen = true)
    (ht : w.store.inTransaction = false) (hl : w.store.tables.lost = []) {claimed : Attempt}
    {pickedAt : ClockTime} (hp : claimed.pickedAt = some pickedAt)
    (hn : w.store.tables.attempts.any
      (AttemptRow.holdsClaim claimed.attemptId pickedAt.micros claimed.workerName) = false)
    (r : Response) (now : Int) (retryAt : Option Int) :
    (finalize claimed r now retryAt w).1 = .ok false ∧
      (finalize claimed r now retryAt w).2.store.tables = w.store.tables := by
  have hr : w.store.tables.release claimed.attemptId pickedAt.micros claimed.workerName
      (outcomeOf r now retryAt) r.responseId = (false, w.store.tables) :=
    Prod.ext hn (Tables.release_of_not_held hn)
  unfold finalize
  rw [hp]
  dsimp only
  rw [atomically_apply ho ht (x := false) (v := { w with
    store := { w.store with inTransaction := true }
    log := w.log.write .warning storeLogger "Claim lost before finalization"
      [("request_attempt_id", .str claimed.attemptId.write)] none })]
  · exact ⟨rfl, rfl⟩
  · have ht := touch_apply (w := { w with store := { w.store with inTransaction := true } }) hl
    rw [bind_apply, ht]
    dsimp only
    rw [bind_apply, change_apply]
    dsimp only
    rw [hr]
    rfl
  · exact Tables.keepsReferences_self _

end Engine
end WebhookDelivery
