import WebhookDelivery.Proofs.Run

/-!
# WebhookDelivery.Proofs.ClaimExclusion

Claims exclude one another. All units of a pool share one name, so a claim is told from a later one
of the same attempt by the time alone at which it was picked; that no later claim has the same time
follows where a retry is due only after the claim that it follows.

* `Tables.Holds`: an attempt is held under a claim, which lasts until the claim is ended.
* `Tables.IsPast`: a claim is over, and its attempt can only be claimed later than it was.
* `claims_are_exclusive`: a claimed attempt is claimed again only after its claim was ended, a claim
  is ended at most once, and later attempts to end it change nothing.
-/

namespace WebhookDelivery

/-- Where the attempt is to be repeated, it is so after the time at which it was picked. -/
def Ending.IsLater (e : Ending) : Prop := ∀ due, e.outcome = .retried due → e.token.pickedAt < due

namespace AttemptRow

/-- The row can no longer be held under a claim that was picked at a time: it has ended, is held
under a later claim, or is due only later. -/
def IsBeyond (r : AttemptRow) (time : Int) : Prop :=
  r.isOpen → match r.pickedAt with
    | none => ∃ due, r.delayUntil = some due ∧ time < due
    | some pickedAt => time < pickedAt

theorem Evolves.isBeyond {ends : Ending → Prop} {r r' : AttemptRow} {time : Int}
    (h : r.Evolves ends r') (hb : r.IsBeyond time) (he : ∀ e, ends e → e.IsLater) :
    r'.IsBeyond time := by
  intro ho
  have hr := hb (h.isOpen ho)
  cases h with
  | same => exact hr
  | claimed c now free due =>
    simp only [isFree, Bool.and_eq_true, Option.isNone_iff_eq_none] at free
    rw [free.2] at hr
    obtain ⟨d, hd, hlt⟩ := hr
    simp only [isDue, hd, decide_eq_true_eq] at due
    exact Int.lt_of_lt_of_le hlt due
  | ended e held hends =>
    obtain ⟨-, hp, -, -⟩ := ClaimToken.holds_iff.mp held
    rw [hp] at hr
    obtain ⟨due, hout⟩ := Outcome.eq_retried_of_isOpen ho
    rw [hout]
    exact ⟨due, rfl, Int.lt_trans hr (he e hends due hout)⟩

theorem isBeyond_apply {e : Ending} (he : e.IsLater) {r : AttemptRow} :
    (e.outcome.apply e.response.responseId r).IsBeyond e.token.pickedAt := by
  intro ho
  obtain ⟨due, hout⟩ := Outcome.eq_retried_of_isOpen ho
  rw [hout]
  exact ⟨due, rfl, he due hout⟩

/-- A row that is held under a claim can only be released by the end of that claim. -/
theorem Evolves.holds {ends : Ending → Prop} {r r' : AttemptRow} {k : ClaimToken}
    (h : r.Evolves ends r') (hk : k.holds r) (he : ∀ e, ends e → e.token ≠ k) : k.holds r' := by
  obtain ⟨hi, hp, hw, -⟩ := ClaimToken.holds_iff.mp hk
  cases h with
  | same => exact hk
  | claimed c now free _ => simp [isFree, hp] at free
  | ended e held hends =>
    obtain ⟨hi', hp', hw', -⟩ := ClaimToken.holds_iff.mp held
    refine absurd ?_ (he e hends)
    rw [hi] at hi'
    rw [hp, Option.some.injEq] at hp'
    rw [hw] at hw'
    exact (ClaimToken.mk.injEq ..).mpr ⟨hi'.symm, hp'.symm, hw'.symm⟩

end AttemptRow

namespace Tables

variable {ends : Ending → Prop} {t t' : Tables} {k : ClaimToken}

/-- The attempt of the claim is held under it. -/
def Holds (t : Tables) (k : ClaimToken) : Prop := ∃ r ∈ t.attempts, k.holds r

/-- The claim is over for good. -/
def IsPast (t : Tables) (k : ClaimToken) : Prop :=
  ∃ r ∈ t.attempts, r.attemptId = k.attemptId ∧ r.IsBeyond k.pickedAt

theorem Change.holds (h : Change ends t t') (hs : t.Sound) (hk : t.Holds k)
    (he : ∀ e, ends e → e.token ≠ k) : t'.Holds k := by
  obtain ⟨r, hr, hh⟩ := hk
  rcases h.attempts hs.toIndexed with ⟨new, -, -, ha⟩ | ⟨f, ha, hf⟩
  · exact ⟨r, ha ▸ List.mem_append_left _ hr, hh⟩
  · exact ⟨f r, ha ▸ List.mem_map_of_mem hr, (hf r hr).holds hh he⟩

theorem Change.isPast (h : Change ends t t') (hs : t.Sound) (hk : t.IsPast k)
    (he : ∀ e, ends e → e.IsLater) : t'.IsPast k := by
  obtain ⟨r, hr, hi, hb⟩ := hk
  rcases h.attempts hs.toIndexed with ⟨new, -, -, ha⟩ | ⟨f, ha, hf⟩
  · exact ⟨r, ha ▸ List.mem_append_left _ hr, hi, hb⟩
  · exact ⟨f r, ha ▸ List.mem_map_of_mem hr, (hf r hr).frame.1.trans hi, (hf r hr).isBeyond hb he⟩

theorem IsPast.not_held (h : t.IsPast k) (hs : t.Sound) : t.attempts.any k.holds = false := by
  obtain ⟨r, hr, hi, hb⟩ := h
  rw [List.any_eq_false]
  intro x hx hh
  obtain ⟨hxi, hp, -, ho⟩ := ClaimToken.holds_iff.mp hh
  obtain rfl := List.inj_on_of_nodup_map hs.attemptIds hx hr (hxi.trans hi.symm)
  have hlt := hb ho
  rw [hp] at hlt
  exact absurd hlt (Int.lt_irrefl _)

theorem isPast_of_finish {e : Ending} (hs : t.Sound) (held : t.attempts.any e.token.holds)
    (he : e.IsLater) (h : t.finish? e = .ok t') : t'.IsPast e.token := by
  obtain rfl := finish?_eq_ok hs.referencesUnchecked h
  obtain ⟨r, hr, hh⟩ := List.any_eq_true.mp held
  refine ⟨e.outcome.apply e.response.responseId r, ?_, ?_, AttemptRow.isBeyond_apply he⟩
  · refine mem_updateRows.mpr ⟨r, hr, ?_⟩
    exact if_pos hh
  · rw [(e.outcome.apply_frame _ r).1]
    exact (ClaimToken.holds_iff.mp hh).1

end Tables

/-! ## Calls -/

namespace Call

variable {x : Call} {k : ClaimToken}

/-- The call claims an attempt. -/
def Claims (x : Call) (claim : Claim) : Prop :=
  ∃ c now, x.operation = .claim c now ∧ x.answer = .ok (.claims [claim])

def Finalizes (x : Call) (k : ClaimToken) : Prop :=
  ∃ claimed r now retryAt, x.operation = .finalize claimed r now retryAt ∧
    claimed.token? = some k

theorem Finalizes.ends (h : x.Finalizes k) (ha : x.answer = .ok (.flag true)) :
    ∃ e, x.Ends e ∧ e.token = k := by
  obtain ⟨claimed, r, now, retryAt, ho, hk⟩ := h
  refine ⟨⟨k, Engine.outcomeOf r now retryAt, r⟩, ⟨_, ha, ?_⟩, rfl⟩
  rw [ho]
  exact ⟨hk, rfl, rfl⟩

theorem Ends.finalizes {e : Ending} (h : x.Ends e) :
    x.Finalizes e.token ∧ x.answer = .ok (.flag true) := by
  obtain ⟨a, ha, he⟩ := h
  unfold Operation.Ends at he
  split at he
  · rename_i claimed r now retryAt ho
    exact ⟨⟨claimed, r, now, retryAt, ho, he.1⟩, ha⟩
  · exact he.elim

theorem Ends.isLater {e : Ending} (h : x.Ends e)
    (later : ∀ claimed r now due, x.operation = .finalize claimed r now (some due) →
      ∀ k, claimed.token? = some k → k.pickedAt < due) : e.IsLater := by
  intro due hdue
  obtain ⟨a, -, he⟩ := h
  unfold Operation.Ends at he
  split at he
  · rename_i claimed r now retryAt ho
    obtain ⟨hk, hout, -⟩ := he
    rw [hdue] at hout
    unfold Engine.outcomeOf at hout
    split at hout
    · cases hout
    · cases retryAt with
      | none => cases hout
      | some due' =>
        cases hout
        exact later claimed r now due ho _ hk
  · exact he.elim

/-- An attempt is free when it is claimed, and is then held under its claim. -/
theorem Claims.holds {claim : Claim} (h : x.Claims claim) :
    ∃ k, claim.attempt.token? = some k ∧ k.attemptId = claim.attempt.attemptId ∧
      x.after.tables.Holds k ∧
      ∃ r ∈ x.before.tables.attempts, r.attemptId = k.attemptId ∧ r.isFree := by
  obtain ⟨c, now, ho, ha⟩ := h
  have hm := ((Engine.meets_claimNext c now).map fun claim => Answer.claims claim.toList) x.world
  unfold answer at ha
  rw [ho] at ha
  obtain ⟨found, ⟨hd, hf⟩, hc⟩ := hm.2 _ ha
  have hfound : found = some claim := by
    cases found with
    | none => cases hc
    | some claim' => cases hc; rfl
  subst hfound
  cases hn : x.world.data.tables.nextClaim? c now with
  | none =>
    rw [hn] at hf
    cases hf
  | some r =>
    rw [hn] at hf
    obtain ⟨claim', heq, hl⟩ := hf
    cases heq
    obtain ⟨hr, hfree, -⟩ := Tables.mem_of_nextClaim? hn
    have hi := (AttemptRow.read_eq_ok hl.attempt).1
    have hopen : r.isOpen := (Bool.and_eq_true_iff.mp hfree).1
    refine ⟨⟨r.attemptId, now, some c.name⟩, AttemptRow.token?_read hl.attempt, hi.symm,
      ⟨r.claimedBy c now, ?_, ?_⟩, r, hr, rfl, hfree⟩
    · have ht : x.after.tables = (x.world.data.tables.claim c now).2 := by
        unfold after
        rw [ho]
        exact congrArg Data.tables hd
      rw [ht, Tables.claim, hn]
      exact Tables.mem_updateRows.mpr ⟨r, hr, if_pos (by simp)⟩
    · exact ClaimToken.holds_iff.mpr ⟨rfl, rfl, rfl, hopen⟩

theorem Ends.isPast {e : Ending} (h : x.Ends e) (hs : x.before.tables.Sound) (he : e.IsLater) :
    x.after.tables.IsPast e.token :=
  Tables.isPast_of_finish hs h.finish.1 he h.finish.2

/-- To end a claim that is over is refused and changes nothing. -/
theorem Finalizes.of_isPast (h : x.Finalizes k) (hi : x.before.IsIdle) (hs : x.before.tables.Sound)
    (hk : x.before.tables.IsPast k) :
    x.answer = .ok (.flag false) ∧ x.after.tables = x.before.tables := by
  obtain ⟨claimed, r, now, retryAt, ho, hc⟩ := h
  obtain ⟨pickedAt, hp, rfl⟩ := Option.map_eq_some_iff.mp hc
  obtain ⟨ha, ht⟩ := Engine.finalize_of_not_held hi.isOpen hi.inTransaction hs.lost hp
    (hk.not_held hs) r now retryAt
  have hx : x.operation.run x.world =
      (.ok (.flag false), (Engine.finalize claimed r now retryAt x.world).2) := by
    rw [ho, Operation.run, Engine.map_apply]
    cases hf : Engine.finalize claimed r now retryAt x.world with
    | mk result w =>
      rw [hf] at ha
      cases ha
      rfl
  unfold answer after
  rw [hx]
  exact ⟨rfl, ht⟩

end Call

namespace Run

variable {s t : Store} {calls : List Call} {k : ClaimToken}

theorem holds (h : Run s calls t) (hi : s.IsIdle) (hs : s.tables.Sound) (hk : s.tables.Holds k)
    (he : ∀ x ∈ calls, ∀ e, x.Ends e → e.token ≠ k) : t.tables.Holds k := by
  have hinv : t.tables.Sound ∧ t.tables.Holds k :=
    h.invariant (I := fun t => t.Sound ∧ t.Holds k) hi ⟨hs, hk⟩
      fun x hx _ _ hc ht => ⟨hc.sound ht.1, hc.holds ht.1 ht.2 (he x hx)⟩
  exact hinv.2

theorem isPast (h : Run s calls t) (hi : s.IsIdle) (hs : s.tables.Sound) (hk : s.tables.IsPast k)
    (later : ∀ x ∈ calls, ∀ e, x.Ends e → e.IsLater) : t.tables.IsPast k := by
  have hinv : t.tables.Sound ∧ t.tables.IsPast k :=
    h.invariant (I := fun t => t.Sound ∧ t.IsPast k) hi ⟨hs, hk⟩
      fun x hx _ _ hc ht => ⟨hc.sound ht.1, hc.isPast ht.1 ht.2 (later x hx)⟩
  exact hinv.2

end Run

/-- In a run in which retries are due after the claims that they follow: an attempt that was claimed
is claimed again only after its claim was ended; of all calls that end one claim at most one
succeeds; and those after it are refused and change nothing, whoever holds the attempt by then. -/
theorem claims_are_exclusive {onFile : Bool} {calls pre mid post : List Call} {x y : Call}
    {s : Store} (h : Run (.create onFile) calls s)
    (later : ∀ x ∈ calls, ∀ e, x.Ends e → e.IsLater)
    (order : calls = pre ++ x :: (mid ++ y :: post)) :
    (∀ claim claim', x.Claims claim → y.Claims claim' →
      claim.attempt.attemptId = claim'.attempt.attemptId →
      ∃ k, claim.attempt.token? = some k ∧
        ∃ z ∈ mid, z.Finalizes k ∧ z.answer = .ok (.flag true)) ∧
    (∀ k, x.Finalizes k → y.Finalizes k →
      ¬(x.answer = .ok (.flag true) ∧ y.answer = .ok (.flag true))) ∧
    ∀ k, x.Finalizes k → y.Finalizes k → x.answer = .ok (.flag true) →
      y.answer = .ok (.flag false) ∧ y.after.tables = y.before.tables := by
  subst order
  obtain ⟨hpre, hrest⟩ := h.around
  obtain ⟨hmid, -⟩ := hrest.around
  have hxi : x.before.IsIdle := hpre.isIdle (Store.isIdle_create onFile)
  have hxs : x.before.tables.Sound := hpre.sound (Store.isIdle_create onFile) Tables.sound_empty
  have hai : x.after.IsIdle := Call.isIdle_after hxi
  have has : x.after.tables.Sound := Call.sound_after hxi hxs
  have hyi : y.before.IsIdle := hmid.isIdle hai
  have hys : y.before.tables.Sound := hmid.sound hai has
  have laterMid : ∀ z ∈ mid, ∀ e, z.Ends e → e.IsLater := fun z hz => later z (by simp [hz])
  have refused : ∀ k, x.Finalizes k → y.Finalizes k → x.answer = .ok (.flag true) →
      y.answer = .ok (.flag false) ∧ y.after.tables = y.before.tables := by
    intro k hx hy ha
    obtain ⟨e, he, rfl⟩ := hx.ends ha
    have hk : x.after.tables.IsPast e.token := he.isPast hxs (later x (by simp) e he)
    exact hy.of_isPast hyi hys (hmid.isPast hai has hk laterMid)
  refine ⟨?_, ?_, refused⟩
  · intro claim claim' hx hy hid
    obtain ⟨k, hk, hki, hh, -⟩ := hx.holds
    obtain ⟨k', -, hki', -, r, hr, hri, hfree⟩ := hy.holds
    refine ⟨k, hk, ?_⟩
    -- A claim that no call in between has ended is still held when its attempt is claimed again.
    by_contra hno
    have hyk : y.before.tables.Holds k := by
      refine hmid.holds hai has hh fun z hz e he heq => hno ⟨z, hz, ?_⟩
      subst heq
      exact he.finalizes
    obtain ⟨r', hr', hh'⟩ := hyk
    obtain ⟨hi', hp', -, -⟩ := ClaimToken.holds_iff.mp hh'
    have hsame : r.attemptId = r'.attemptId := by rw [hri, hki', ← hid, ← hki, hi']
    obtain rfl := List.inj_on_of_nodup_map hys.attemptIds hr hr' hsame
    simp [AttemptRow.isFree, hp'] at hfree
  · rintro k hx hy ⟨ha, hb⟩
    rw [(refused k hx hy ha).1] at hb
    cases hb

/-- A claim that was given up and retried is ended once more after its attempt was claimed again. -/
def contested : List Operation :=
  Sample.begin ++ [.claim Sample.claimant 1,
    .finalize (Sample.claimed 1) (Sample.response 11 (some .timeout)) 2 (some 5),
    .claim Sample.claimant 5, .finalize (Sample.claimed 1) (Sample.response 12 none) 6 none]

/-- The second end of the claim is refused, although a worker of the same name holds the attempt. -/
theorem contested_end_is_refused :
    (Call.inTurn Sample.world contested)[6].answer = .ok (.flag false) ∧
      (Call.inTurn Sample.world contested)[6].after.tables =
        (Call.inTurn Sample.world contested)[6].before.tables := by
  have h : Run (.create true) _ _ := run_inTurn Sample.world contested
  have later : ∀ x ∈ Call.inTurn Sample.world contested, ∀ e, x.Ends e → e.IsLater := by
    intro x hx e he
    refine he.isLater fun claimed r now due ho k hk => ?_
    have hm := operation_mem_of_mem_inTurn hx
    rw [ho] at hm
    simp [contested, Sample.begin] at hm
    obtain ⟨rfl, -, -, rfl⟩ := hm
    cases hk
    decide
  have order : Call.inTurn Sample.world contested =
      (Call.inTurn Sample.world contested).take 4 ++ (Call.inTurn Sample.world contested)[4] ::
        ([(Call.inTurn Sample.world contested)[5]] ++
          (Call.inTurn Sample.world contested)[6] :: []) := rfl
  exact (claims_are_exclusive h later order).2.2 ⟨_, 1, _⟩ ⟨_, _, _, _, rfl, rfl⟩
    ⟨_, _, _, _, rfl, rfl⟩ rfl

end WebhookDelivery
