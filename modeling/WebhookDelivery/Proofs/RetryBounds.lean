import WebhookDelivery.Proofs.Executions

/-!
# WebhookDelivery.Proofs.RetryBounds

How often an attempt is retried, and when it is given up. The ceiling is read with the subscription
when an attempt is claimed, as the number of its retries is; both may have been overtaken when the
outcome is recorded, in the store only the counter moves.

* `Tables.Tracks`: a claim is held by a row that still has the retries with which it was handed out,
  or is over for good; `Change.tracks` keeps this where retries are due after the claims that they
  follow. So the counter on which a unit decides is the one that is incremented.
* `Course.retryCount_le`, `Course.failed`, `Execution.retried`: bounds, ends and retries.
* `retries_are_bounded`: the result about all courses.
-/

namespace WebhookDelivery

/-- A row that is held under a claim keeps its number of retries, until the claim is over. -/
theorem AttemptRow.Evolves.holds_or_isBeyond {ends : Ending → Prop} {r r' : AttemptRow}
    {k : ClaimToken} (h : r.Evolves ends r') (hk : k.holds r) (he : ∀ e, ends e → e.IsLater) :
    (k.holds r' ∧ r'.retryCount = r.retryCount) ∨ r'.IsBeyond k.pickedAt := by
  obtain ⟨-, hp, -, -⟩ := ClaimToken.holds_iff.mp hk
  cases h with
  | same => exact .inl ⟨hk, rfl⟩
  | claimed c now free _ => simp [isFree, hp] at free
  | ended e held hends =>
    obtain ⟨-, hp', -, -⟩ := ClaimToken.holds_iff.mp held
    rw [hp, Option.some.injEq] at hp'
    right
    rw [hp']
    exact isBeyond_apply (he e hends)

namespace Tables

variable {ends : Ending → Prop} {t t' : Tables} {k : ClaimToken} {n : Int}

/-- The claim is held by a row with a number of retries, or it is over for good. -/
def Tracks (t : Tables) (k : ClaimToken) (n : Int) : Prop :=
  (∃ r ∈ t.attempts, k.holds r ∧ r.retryCount = n) ∨ t.IsPast k

theorem Change.tracks (h : Change ends t t') (hs : t.Sound) (hk : t.Tracks k n)
    (he : ∀ e, ends e → e.IsLater) : t'.Tracks k n := by
  rcases hk with ⟨r, hr, hh, hn⟩ | hpast
  · rcases h.attempts hs.toIndexed with ⟨new, -, -, ha⟩ | ⟨f, ha, hf⟩
    · exact .inl ⟨r, ha ▸ List.mem_append_left _ hr, hh, hn⟩
    · have hm : f r ∈ t'.attempts := ha ▸ List.mem_map_of_mem hr
      rcases (hf r hr).holds_or_isBeyond hh he with ⟨hh', hn'⟩ | hb
      · exact .inl ⟨f r, hm, hh', hn'.trans hn⟩
      · exact .inr ⟨f r, hm, (hf r hr).frame.1.trans (ClaimToken.holds_iff.mp hh).1, hb⟩
  · exact .inr (h.isPast hs hpast he)

/-- The row under which a claim is held has the retries with which it was handed out. -/
theorem Tracks.retryCount_eq (h : t.Tracks k n) (hs : t.Sound) {r : AttemptRow}
    (hr : r ∈ t.attempts) (hk : k.holds r) : r.retryCount = n := by
  rcases h with ⟨own, hown, hh, hn⟩ | hpast
  · have hid : own.attemptId = r.attemptId :=
      (ClaimToken.holds_iff.mp hh).1.trans (ClaimToken.holds_iff.mp hk).1.symm
    obtain rfl := List.inj_on_of_nodup_map hs.attemptIds hown hr hid
    exact hn
  · have hnone := List.any_eq_false.mp (hpast.not_held hs) r hr
    exact absurd hk hnone

end Tables

/-! ## Claims -/

theorem tracks_of_loads {t t' : Tables} {claim : Claim} {r : AttemptRow} (hl : claim.Loads t r)
    (hr : r ∈ t'.attempts) (ho : r.isOpen) (hp : r.pickedAt.isSome) :
    ∃ k, claim.attempt.token? = some k ∧ t'.Tracks k claim.attempt.retryCount := by
  obtain ⟨time, htime⟩ := Option.isSome_iff_exists.mp hp
  obtain ⟨-, -, -, -, -, hcount, -⟩ := AttemptRow.read_eq_ok hl.attempt
  refine ⟨⟨r.attemptId, time, r.workerName⟩, ?_, .inl ⟨r, hr, ?_, hcount.symm⟩⟩
  · rw [AttemptRow.token?_read hl.attempt, htime]
    rfl
  · exact ClaimToken.holds_iff.mpr ⟨rfl, htime, rfl, ho⟩

/-- A claim that is handed out is of a picked row of the tables, and these have the events that were
there before. -/
structure Claim.IsOf (claim : Claim) (t t' : Tables) (r : AttemptRow) : Prop where
  loads : claim.Loads t' r
  mem : r ∈ t'.attempts
  isOpen : r.isOpen
  isPicked : r.pickedAt.isSome
  events : t'.events = t.events

theorem Operation.meets_no_claims {α : Type} {body : Engine α} {post : Data → α → Data → Prop}
    (h : body.Meets post) {answer : α → Answer} (ha : ∀ x, (answer x).claimsOf = [])
    (P : Data → Claim → Data → Prop) :
    (answer <$> body).Meets fun d b d' => ∀ claim ∈ b.claimsOf, P d claim d' := by
  refine (h.map answer).mono ?_
  rintro d _ d' ⟨x, -, rfl⟩ claim hm
  rw [ha] at hm
  exact absurd hm List.not_mem_nil

/-- Claims are handed out of picked rows. -/
theorem Operation.meets_isOf (o : Operation) :
    o.run.Meets fun d b d' => ∀ claim ∈ b.claimsOf, ∃ r, claim.IsOf d.tables d'.tables r := by
  cases o with
  | storeEvent e => exact meets_no_claims (Engine.meets_insertEvent e) (fun _ => rfl) _
  | ingest e now => exact meets_no_claims (Engine.meets_ingest e now) (fun _ => rfl) _
  | replay eventId application subscription now =>
    exact meets_no_claims (Engine.meets_replay eventId application subscription now) (fun _ => rfl) _
  | claim c now =>
    refine ((Engine.meets_claimNext c now).map _).mono ?_
    rintro d _ d' ⟨found, ⟨rfl, hf⟩, rfl⟩ claim hm
    cases hn : d.tables.nextClaim? c now with
    | none =>
      rw [hn] at hf
      subst hf
      exact absurd hm List.not_mem_nil
    | some r =>
      rw [hn] at hf
      obtain ⟨claim', rfl, hl⟩ := hf
      obtain rfl := List.mem_singleton.mp hm
      obtain ⟨hr, hfree, -⟩ := Tables.mem_of_nextClaim? hn
      refine ⟨_, hl, ?_, (Bool.and_eq_true_iff.mp hfree).1, rfl, (d.tables.claim_frame c now).1⟩
      rw [Tables.claim, hn]
      exact Tables.mem_updateRows.mpr ⟨r, hr, if_pos (by simp)⟩
  | findStale before limit =>
    refine ((Engine.meets_findStale before limit).map _).mono ?_
    rintro _ _ d ⟨claims, ⟨hall, rfl⟩, rfl⟩ claim hm
    obtain ⟨n, hn, rfl⟩ := List.getElem_of_mem hm
    have hlen : n < (d.tables.staleClaims before limit).length := by
      rw [hall.length_eq]
      exact hn
    have hr := Tables.mem_of_mem_limited (List.getElem_mem hlen)
    rw [List.mem_mergeSort] at hr
    obtain ⟨hmem, hstale⟩ := List.mem_filter.mp hr
    obtain ⟨hopen, hpicked⟩ := Bool.and_eq_true_iff.mp hstale
    have hsome : ∀ picked : Option Int, picked.any (· < before) → picked.isSome := by
      intro picked h
      cases picked with
      | none => cases h
      | some time => rfl
    exact ⟨_, hall.get hlen hn, hmem, hopen, hsome _ hpicked, rfl⟩
  | finalize claimed r now retryAt =>
    exact meets_no_claims (Engine.meets_finalize claimed r now retryAt) (fun _ => rfl) _
  | saveSubscription s =>
    exact meets_no_claims (Engine.meets_saveSubscription s) (fun _ => rfl) _
  | setEnabled id enabled =>
    exact meets_no_claims (Engine.meets_setSubscriptionEnabled id enabled) (fun _ => rfl) _

/-- Claims are handed out with the retries that their rows have. -/
theorem Operation.meets_claimsOf (o : Operation) :
    o.run.Meets fun _ b d' => ∀ claim ∈ b.claimsOf,
      ∃ k, claim.attempt.token? = some k ∧ d'.tables.Tracks k claim.attempt.retryCount := by
  refine o.meets_isOf.mono fun d b d' h claim hm => ?_
  obtain ⟨r, hr⟩ := h claim hm
  exact tracks_of_loads hr.loads hr.mem hr.isOpen hr.isPicked

/-- A call that records no outcome adds fresh rows and claims free ones at most. -/
theorem Call.rows_after {P : AttemptRow → Prop} {x : Call} (hi : x.before.IsIdle)
    (hs : x.before.tables.Indexed) (ho : x.operation.isFinalize = false)
    (fresh : ∀ r : AttemptRow, r.IsFresh → P r) (claimed : ∀ r c now, P r → P (r.claimedBy c now))
    (h : ∀ r ∈ x.before.tables.attempts, P r) : ∀ r ∈ x.after.tables.attempts, P r := by
  refine ((Call.changes hi).invariant (I := fun t => t.Indexed ∧ ∀ r ∈ t.attempts, P r) ⟨hs, h⟩
    fun t t' hc ht => ⟨hc.indexed ht.1, fun r hr => ?_⟩).2
  rcases hc.attempts ht.1 with ⟨new, hnew, -, ha⟩ | ⟨f, ha, hf⟩
  · rw [ha] at hr
    rcases List.mem_append.mp hr with hr | hr
    · exact ht.2 r hr
    · rw [List.mem_singleton.mp hr]
      exact fresh new hnew
  · rw [ha] at hr
    obtain ⟨old, hold, rfl⟩ := List.mem_map.mp hr
    have hevolves := hf old hold
    generalize f old = new at hevolves ⊢
    cases hevolves with
    | same => exact ht.2 old hold
    | claimed c now _ _ => exact claimed old c now (ht.2 old hold)
    | ended e _ he => exact absurd he (Call.not_ends_of_isFinalize ho e)

/-! ## Executions -/

namespace Execution

variable {x : Execution}

/-- An execution changes no row but one that is held under its claim. -/
theorem rows_after {P : AttemptRow → Prop} (hi : x.before.IsIdle) (hs : x.before.tables.Sound)
    (ended : ∀ e, x.Records e → ∀ r ∈ x.before.tables.attempts, e.token.holds r → P r →
      P (e.outcome.apply e.response.responseId r))
    (h : ∀ r ∈ x.before.tables.attempts, P r) : ∀ r ∈ x.after.tables.attempts, P r := by
  rcases x.effect hi with ⟨ha, -⟩ | ⟨e, he⟩
  · rw [ha]
    exact h
  · intro r hr
    rw [Tables.finish?_eq_ok hs.referencesUnchecked he.finish] at hr
    obtain ⟨old, hold, rfl⟩ := Tables.mem_updateRows.mp hr
    split
    · rename_i hh
      exact ended e he old hold hh (h old hold)
    · exact h old hold

/-- The attempt of a row has failed by the execution, which could not be repeated or had reached its
ceiling. -/
structure Fails (x : Execution) (r : AttemptRow) : Prop where
  attemptId : x.claim.attempt.attemptId = r.attemptId
  responseId : r.responseId = some x.response.responseId
  cause : ∃ failure, x.response.failure? = some failure ∧
    (failure.isRetryable = false ∨ x.ceiling ≤ x.claim.attempt.retryCount)

theorem Records.attemptId {e : Ending} (he : x.Records e) :
    e.token.attemptId = x.claim.attempt.attemptId := by
  obtain ⟨time, -, htok⟩ := Option.map_eq_some_iff.mp he.token
  rw [← htok]

/-- A retryable failure that is recorded below the ceiling leaves the attempt open, with one retry
more. -/
theorem retried (hi : x.before.IsIdle) (hs : x.before.tables.Sound) (hrec : x.IsRecorded)
    {failure : Failure} (hf : x.response.failure? = some failure)
    (hretry : failure.isRetryable = true) (hbelow : x.claim.attempt.retryCount < x.ceiling) :
    ∃ r r', x.before.tables.attempt? x.claim.attempt.attemptId = some r ∧
      x.after.tables.attempt? x.claim.attempt.attemptId = some r' ∧ r'.isOpen ∧
      r'.retryCount = r.retryCount + 1 := by
  rcases x.effect hi with ⟨-, hn⟩ | ⟨e, he⟩
  · exact absurd hrec hn
  · have hout := he.outcome
    cases ho : e.outcome with
    | succeeded time =>
      rw [ho] at hout
      unfold Response.failure? at hf
      obtain ⟨kind, hk, -⟩ := Option.map_eq_some_iff.mp hf
      simp [Response.isSuccess, hk] at hout
    | failed time =>
      rw [ho] at hout
      obtain ⟨failure', hf', hwhy⟩ := hout
      rw [hf] at hf'
      cases hf'
      rcases hwhy with hwhy | hwhy
      · rw [hretry] at hwhy
        cases hwhy
      · exact absurd hbelow (Int.not_lt.mpr hwhy)
    | retried due =>
      obtain ⟨r, hr, hh⟩ := List.any_eq_true.mp he.held
      obtain ⟨hid, -, -, hopen⟩ := ClaimToken.holds_iff.mp hh
      have hid' : r.attemptId = x.claim.attempt.attemptId := hid.trans he.attemptId
      have hafter := Tables.finish?_eq_ok hs.referencesUnchecked he.finish
      have hmem : e.outcome.apply e.response.responseId r ∈ x.after.tables.attempts := by
        rw [hafter]
        exact Tables.mem_updateRows.mpr ⟨r, hr, if_pos hh⟩
      have hfind := Tables.attempt?_eq_some (hs.toIndexed.finish he.finish) hmem
      rw [(e.outcome.apply_frame _ r).1, hid', ho] at hfind
      refine ⟨r, _, ?_, hfind, hopen, rfl⟩
      rw [← hid']
      exact Tables.attempt?_eq_some hs.toIndexed hr

end Execution

/-! ## Courses -/

namespace Course

variable {onFile : Bool} {s : Store} {known : Claim → Prop} {done : List Execution}

theorem isSound (h : Course onFile s known done) :
    s.IsIdle ∧ s.tables.Sound ∧ s.tables.Recounted := by
  induction h with
  | create =>
    exact ⟨Store.isIdle_create onFile, Tables.sound_empty, fun _ h => absurd h List.not_mem_nil⟩
  | call x _ ho ih =>
    obtain ⟨hi, ht⟩ := ih
    refine ⟨Call.isIdle_after hi, (Call.changes hi).invariant
      (I := fun t => t.Sound ∧ t.Recounted) ht fun _ _ hc ht => ⟨hc.sound ht.1, ?_⟩⟩
    exact hc.recounts ht.1 ht.2 fun e he => absurd he (Call.not_ends_of_isFinalize ho e)
  | conclude x _ _ answers ih =>
    obtain ⟨hi, ht⟩ := ih
    refine ⟨Execution.isIdle_after hi, (Execution.changes hi).invariant
      (I := fun t => t.Sound ∧ t.Recounted) ht fun _ _ hc ht => ⟨hc.sound ht.1, ?_⟩⟩
    exact hc.recounts ht.1 ht.2 fun e he => he.isRegular answers

theorem tracks (h : Course onFile s known done) (later : ∀ x ∈ done, x.IsLater) :
    ∀ claim, known claim → ∃ k, claim.attempt.token? = some k ∧
      s.tables.Tracks k claim.attempt.retryCount := by
  -- What is tracked stays so under changes that end claims with later retries only.
  have hkeep : ∀ {ends : Ending → Prop} {t t' : Tables}, Tables.Changes ends t t' → t.Sound →
      (∀ e, ends e → e.IsLater) → ∀ k n, t.Tracks k n → t'.Tracks k n := by
    intro ends t t' hc hs he k n hk
    exact (hc.invariant (I := fun t => t.Sound ∧ t.Tracks k n) ⟨hs, hk⟩
      fun _ _ hc ht => ⟨hc.sound ht.1, hc.tracks ht.1 ht.2 he⟩).2
  induction h with
  | create => exact fun _ hk => hk.elim
  | call x hx ho ih =>
    obtain ⟨hi, hs, -⟩ := hx.isSound
    rintro claim (hk | ⟨b, hb, hm⟩)
    · obtain ⟨k, htok, hk⟩ := ih later claim hk
      exact ⟨k, htok, hkeep (Call.changes hi) hs
        (fun e he => absurd he (Call.not_ends_of_isFinalize ho e)) _ _ hk⟩
    · exact (x.operation.meets_claimsOf x.world).2 b hb claim hm
  | conclude x hx _ _ ih =>
    obtain ⟨hi, hs, -⟩ := hx.isSound
    intro claim hk
    obtain ⟨k, htok, hk⟩ := ih (fun y hy => later y (List.mem_append_left _ hy)) claim hk
    exact ⟨k, htok, hkeep (Execution.changes hi) hs
      (fun e he => he.isLater (later x (by simp))) _ _ hk⟩

/-- No attempt is retried more often than all ceilings allow. -/
theorem retryCount_le (h : Course onFile s known done) {limit : Nat}
    (ceilings : ∀ x ∈ done, x.ceiling ≤ limit) (later : ∀ x ∈ done, x.IsLater) :
    ∀ r ∈ s.tables.attempts, r.retryCount ≤ limit := by
  induction h with
  | create => exact fun _ hr => absurd hr List.not_mem_nil
  | call x hx ho ih =>
    obtain ⟨hi, hs, -⟩ := hx.isSound
    refine Call.rows_after hi hs.toIndexed ho (fun r fresh => ?_) (fun _ _ _ hle => hle)
      (ih ceilings later)
    rw [fresh.retryCount]
    exact Int.natCast_nonneg limit
  | @conclude known done x hx hk _ ih =>
    obtain ⟨hi, hs, -⟩ := hx.isSound
    have hlater : ∀ y ∈ done, y.IsLater := fun y hy => later y (List.mem_append_left _ hy)
    refine Execution.rows_after hi hs (fun e he r hr hh hle => ?_)
      (ih (fun y hy => ceilings y (List.mem_append_left _ hy)) hlater)
    have hout := he.outcome
    cases ho : e.outcome with
    | succeeded time => exact hle
    | failed time => exact hle
    | retried due =>
      -- The counter that is incremented is the one that was handed out with the claim.
      obtain ⟨k, htok, htracks⟩ := hx.tracks hlater x.claim hk
      rw [he.token] at htok
      cases htok
      have hcount := htracks.retryCount_eq hs hr hh
      have hceiling := ceilings x (by simp)
      rw [ho] at hout
      obtain ⟨failure, -, -, hbelow⟩ := hout
      simp only [Outcome.apply]
      omega

/-- Every attempt that has failed has done so by an execution. -/
theorem failed (h : Course onFile s known done) :
    ∀ r ∈ s.tables.attempts, r.failedAt.isSome → ∃ x ∈ done, x.Fails r := by
  induction h with
  | create => exact fun _ hr => absurd hr List.not_mem_nil
  | call x hx ho ih =>
    obtain ⟨hi, hs, -⟩ := hx.isSound
    refine Call.rows_after hi hs.toIndexed ho (fun r fresh hfailed => ?_)
      (fun r c now hr hfailed => ?_) ih
    · rw [fresh.failedAt] at hfailed
      cases hfailed
    · obtain ⟨y, hy, hfails⟩ := hr hfailed
      exact ⟨y, hy, hfails.attemptId, hfails.responseId, hfails.cause⟩
  | @conclude known done x hx _ _ ih =>
    obtain ⟨hi, hs, -⟩ := hx.isSound
    refine Execution.rows_after hi hs (fun e he r hr hh _ hfailed => ?_) fun r hr hfailed => ?_
    · obtain ⟨hid, -, -, hopen⟩ := ClaimToken.holds_iff.mp hh
      have hnone : r.failedAt = none := by
        simp only [AttemptRow.isOpen, Bool.and_eq_true, Option.isNone_iff_eq_none] at hopen
        exact hopen.2
      have hout := he.outcome
      cases ho : e.outcome with
      | succeeded time => simp [ho, Outcome.apply, hnone] at hfailed
      | retried due => simp [ho, Outcome.apply, hnone] at hfailed
      | failed time =>
        rw [ho] at hout
        refine ⟨x, by simp, he.attemptId.symm.trans hid.symm, ?_, hout⟩
        rw [← he.response]
        rfl
    · obtain ⟨y, hy, hfails⟩ := ih r hr hfailed
      exact ⟨y, List.mem_append_left _ hy, hfails⟩

end Course

/-- In every course: where no execution has a ceiling above a limit and retries are due after the
claims that they follow, no attempt has more retries than the limit nor more than one response in
addition; an attempt has failed only by an execution that could not be repeated, or under whose claim
it was handed out with as many retries as the ceiling of that execution; and a retryable failure that
is recorded below the ceiling leaves the attempt open with one retry more. Units go on with a course
when they process a claim, reap or take a turn. -/
theorem retries_are_bounded {onFile : Bool} {s : Store} {known : Claim → Prop}
    {done : List Execution} (h : Course onFile s known done) :
    (∀ limit : Nat, (∀ x ∈ done, x.ceiling ≤ limit) → (∀ x ∈ done, x.IsLater) →
      ∀ r ∈ s.tables.attempts, r.retryCount ≤ limit ∧
        (s.tables.recorded r.attemptId).length ≤ limit + 1) ∧
    (∀ r ∈ s.tables.attempts, r.failedAt.isSome → ∃ x ∈ done, x.Fails r) ∧
    (∀ x : Execution, x.before = s → x.IsRecorded → ∀ failure,
      x.response.failure? = some failure → failure.isRetryable = true →
      x.claim.attempt.retryCount < x.ceiling →
      ∃ r r', s.tables.attempt? x.claim.attempt.attemptId = some r ∧
        x.after.tables.attempt? x.claim.attempt.attemptId = some r' ∧ r'.isOpen ∧
        r'.retryCount = r.retryCount + 1) ∧
    ∀ (u : WorkerUnit) (w : World), w.store = s →
      (∀ claim, known claim → ∃ known' more, Course onFile (u.process claim w).2.store known'
        (done ++ more) ∧ ∀ x ∈ more, x.unit.policy = u.policy) ∧
      (∀ now, ∃ known' more, Course onFile (u.reap now w).2.store known' (done ++ more) ∧
        ∀ x ∈ more, x.unit.policy = u.policy) ∧
      ∃ known' more, Course onFile (u.runOnce w).2.2.store known' (done ++ more) ∧
        ∀ x ∈ more, x.unit.policy = u.policy := by
  obtain ⟨hi, hs, hrec⟩ := h.isSound
  refine ⟨fun limit ceilings later r hr => ?_, h.failed, ?_, ?_⟩
  · have hle := h.retryCount_le ceilings later r hr
    have hcount := (hrec r hr).count
    refine ⟨hle, ?_⟩
    split at hcount <;> omega
  · rintro x rfl hx failure hf hretry hbelow
    exact Execution.retried hi hs hx hf hretry hbelow
  · rintro u w rfl
    exact ⟨fun claim hk => h.process u hk, fun now => h.reap u now, h.runOnce u⟩

/-! ## A subscription with two retries -/

theorem Course.runAll {onFile : Bool} {w : World} {known : Claim → Prop} {done : List Execution}
    (h : Course onFile w.store known done) (operations : List Operation)
    (ho : ∀ o ∈ operations, o.isFinalize = false) :
    ∃ known' : Claim → Prop, (∀ claim, known claim → known' claim) ∧
      (∀ x ∈ Call.inTurn w operations, ∀ claim, x.HandsOutClaim claim → known' claim) ∧
      Course onFile (w.runAll operations).store known' done := by
  induction operations generalizing w known with
  | nil => exact ⟨known, fun _ => id, fun _ hx => absurd hx List.not_mem_nil, h⟩
  | cons o rest ih =>
    rw [List.forall_mem_cons] at ho
    obtain ⟨known', hk, hout, hc⟩ := ih (w := (o.run w).2) (h.call ⟨o, w⟩ ho.1) ho.2
    refine ⟨known', fun claim hm => hk claim (.inl hm), fun x hx claim hm => ?_, hc⟩
    rcases List.mem_cons.mp hx with rfl | hx
    · exact hk claim (.inr hm)
    · exact hout x hx claim hm

/-- A call answers with one claim, which is compared part by part. -/
def Call.handsOutOnly (x : Call) (claim : Claim) : Bool :=
  match x.answer with
  | .ok (.claims [found]) => found.attempt = claim.attempt && found.event = claim.event &&
    found.subscription = claim.subscription
  | _ => false

theorem Call.handsOutClaim_of_only {x : Call} {claim : Claim} (h : x.handsOutOnly claim) :
    x.HandsOutClaim claim := by
  unfold handsOutOnly at h
  split at h
  · rename_i found ha
    simp only [Bool.and_eq_true, decide_eq_true_eq] at h
    obtain ⟨⟨hattempt, hevent⟩, hsubscription⟩ := h
    have hfound : found = claim := by
      cases found
      cases claim
      simp_all
    exact ⟨_, ha, hfound ▸ List.mem_cons_self⟩
  · cases h

def Execution.worldAfter (x : Execution) : World :=
  (x.unit.finalize x.claim x.response x.now x.world).2

theorem Execution.store_worldAfter (x : Execution) : x.worldAfter.store = x.after := rfl

namespace Sample

def scheduled : Subscription :=
  { subscription with retrySchedule := some ⟨.linear, [1], 2⟩ }

def unit : WorkerUnit := ⟨.default, .default, 0, none⟩

/-- The first attempt, claimed with retries behind it. -/
def claimOf (time retries due : Int) (last : Option Uuid) : Claim where
  attempt := { claimed time with
    retryCount := retries, delayUntil := some (.utc due), responseId := last }
  event := event
  subscription := scheduled

/-- Creates an attempt of the subscription and claims it in the tenth second. -/
def beginScheduled : List Operation :=
  [.saveSubscription scheduled, .storeEvent event,
    .replay event.eventId application (some scheduled.subscriptionId) 0, .claim claimant 10000000]

/-- The claim is given up in the sixtieth second. -/
def timely : Execution where
  unit := unit
  claim := claimOf 10000000 0 0 none
  response := response 11 (some .timeout)
  now := 60000000
  world := world.runAll beginScheduled

/-- The attempt is claimed again, and the clock is set back before it is given up again. -/
def setBack : Execution where
  unit := unit
  claim := claimOf 62000000 1 60500000 (some (.ofNat 11))
  response := response 12 (some .timeout)
  now := 2000000
  world := timely.worldAfter.runAll [.claim claimant 62000000]

/-- In the tenth second the attempt is claimed once more, and then the execution under the first claim
ends. -/
def late : Execution where
  unit := unit
  claim := timely.claim
  response := response 13 (some .timeout)
  now := 11000000
  world := setBack.worldAfter.runAll [.claim claimant 10000000]

theorem course_timely : ∃ known, known timely.claim ∧ Course true timely.after known [timely] := by
  have hstart : Course true world.store _ _ := .create
  obtain ⟨known, -, hout, hc⟩ := hstart.runAll beginScheduled (by decide)
  have hk : known timely.claim :=
    hout (Call.inTurn world beginScheduled)[3] (List.getElem_mem (by decide)) _
      ⟨_, rfl, List.mem_cons_self⟩
  exact ⟨known, hk, hc.conclude timely hk ⟨rfl, rfl⟩⟩

end Sample

open Sample in
/-- The first retry keeps to the limit of two. -/
theorem first_retry_is_bounded : ∃ r ∈ timely.after.tables.attempts, r.retryCount = 1 ∧
    (1 : Int) ≤ 2 ∧ (timely.after.tables.recorded r.attemptId).length ≤ 3 := by
  obtain ⟨known, -, h⟩ := course_timely
  have hdue : (match timely.decision with
      | .ok decision => RetryDecision.time? decision
      | .error _ => none) = some 60500000 := by decide +kernel
  have later : ∀ x ∈ [timely], x.IsLater := by
    intro x hx decision due k hd ht hk
    obtain rfl := List.mem_singleton.mp hx
    simp only [hd, ht, Option.some.injEq] at hdue
    subst hdue
    cases hk
    decide
  have ceilings : ∀ x ∈ [timely], x.ceiling ≤ (2 : Nat) := by
    intro x hx
    obtain rfl := List.mem_singleton.mp hx
    decide
  have hcounts : timely.after.tables.attempts.map (·.retryCount) = [1] := by decide +kernel
  obtain ⟨r, hr, hone⟩ : ∃ r ∈ timely.after.tables.attempts, r.retryCount = 1 :=
    List.mem_map.mp (by rw [hcounts]; exact List.mem_cons_self)
  obtain ⟨hle, hlength⟩ := (retries_are_bounded h).1 2 ceilings later r hr
  rw [hone] at hle
  exact ⟨r, hr, hone, hle, hlength⟩

open Sample in
/-- Where the clock is set back, a claim can be ended twice, and an attempt can have more retries than
any of its executions allows. -/
theorem setback_exceeds_ceiling :
    (∃ known, Course true late.after known [timely, setBack, late]) ∧
      (∀ x ∈ [timely, setBack, late], x.ceiling = 2) ∧
      late.after.tables.attempts.map (·.retryCount) = [3] := by
  refine ⟨?_, by decide, by decide +kernel⟩
  obtain ⟨known, htimely, hc⟩ := course_timely
  rw [← Execution.store_worldAfter] at hc
  obtain ⟨known, hk, hout, hc⟩ := hc.runAll [.claim claimant 62000000] (by decide)
  have hclaim : known setBack.claim :=
    hout _ List.mem_cons_self _ (Call.handsOutClaim_of_only (by decide +kernel))
  have hlate : known late.claim := hk _ htimely
  have hbefore : setBack.before = (timely.worldAfter.runAll [.claim claimant 62000000]).store := by
    rw [Execution.before, setBack]
  have hc : Course true setBack.after known [timely, setBack] :=
    .conclude setBack (hbefore ▸ hc) hclaim ⟨rfl, rfl⟩
  rw [← Execution.store_worldAfter] at hc
  obtain ⟨known, hk, -, hc⟩ := hc.runAll [.claim claimant 10000000] (by decide)
  have hbefore : late.before = (setBack.worldAfter.runAll [.claim claimant 10000000]).store := by
    rw [Execution.before, late]
  exact ⟨known, .conclude late (hbefore ▸ hc) (hk _ hlate) ⟨rfl, rfl⟩⟩

end WebhookDelivery
