import WebhookDelivery.Proofs.Acts
import WebhookDelivery.Proofs.References

/-!
# WebhookDelivery.Proofs.ResponseHistory

The responses of an attempt tell all of its executions: the counter of retries, the end of the
attempt and the reference to its last response move together with what is recorded.

* `AttemptRow.Recounts`: a row agrees with a list of responses.
* `Change.recounts`: every change keeps the rows in agreement with what is recorded of them.
* `history_is_complete`: so it is whatever dispatchers, replays, workers and the recovery have done.
-/

namespace WebhookDelivery

/-- The execution failed in a way in which another one may succeed. -/
def Response.IsRetryable (x : Response) : Prop :=
  ∃ failure, x.failure? = some failure ∧ failure.isRetryable

theorem Response.IsRetryable.not_isSuccess {x : Response} (h : x.IsRetryable) :
    x.isSuccess = false := by
  obtain ⟨failure, hf, -⟩ := h
  unfold failure? at hf
  cases he : x.error with
  | none =>
    rw [he] at hf
    cases hf
  | some kind => simp [isSuccess, he]

@[simp] theorem Response.isSuccess_toRow (x : Response) : x.toRow.isSuccess = x.isSuccess := rfl

/-- The response is one to the attempt whose claim ends, and the outcome is what it calls for. -/
structure Ending.IsRegular (e : Ending) : Prop where
  attemptId : e.response.attemptId = e.token.attemptId
  outcome : match e.outcome with
    | .succeeded _ => e.response.isSuccess = true
    | .retried _ => e.response.IsRetryable
    | .failed _ => e.response.isSuccess = false

theorem Call.Ends.isRegular {x : Call} {e : Ending} (h : x.Ends e) (hx : x.operation.IsRegular) :
    e.IsRegular := by
  obtain ⟨a, -, he⟩ := h
  unfold Operation.Ends at he
  split at he
  · rename_i claimed r now retryAt ho
    rw [ho] at hx
    obtain ⟨hk, hout, hr⟩ := he
    obtain ⟨pickedAt, -, htok⟩ := Option.map_eq_some_iff.mp hk
    refine ⟨?_, ?_⟩
    · rw [hr, hx.1, ← htok]
    · rw [hout, hr, Engine.outcomeOf.eq_def]
      cases hs : r.isSuccess with
      | true => simp
      | false =>
        cases retryAt with
        | none => simp
        | some due => exact hx.isRetryable
  · exact he.elim

/-- The row agrees with the responses in the order in which they were recorded. -/
structure AttemptRow.Recounts (r : AttemptRow) (xs : List Response) : Prop where
  count : (xs.length : Int) = r.retryCount + if r.isOpen then 0 else 1
  responseId : r.responseId = xs.getLast?.map (·.responseId)
  retried : ∀ x ∈ xs.dropLast, x.IsRetryable
  open_retried : r.isOpen → ∀ x ∈ xs, x.IsRetryable
  succeeded : r.succeededAt.isSome ↔ ∃ x, xs.getLast? = some x ∧ x.isSuccess

namespace AttemptRow

theorem IsFresh.recounts {r : AttemptRow} (h : r.IsFresh) : r.Recounts [] where
  count := by simp [h.isOpen, h.retryCount]
  responseId := h.responseId
  retried := fun _ hx => absurd hx List.not_mem_nil
  open_retried := fun _ _ hx => absurd hx List.not_mem_nil
  succeeded := by simp [h.succeededAt]

namespace Recounts

variable {r : AttemptRow} {xs : List Response}

theorem claimedBy (h : r.Recounts xs) (c : Claimant) (now : Int) :
    (r.claimedBy c now).Recounts xs :=
  ⟨h.count, h.responseId, h.retried, h.open_retried, h.succeeded⟩

/-- The end of a claim records one response more. -/
theorem ended (h : r.Recounts xs) {e : Ending} (ho : r.isOpen) (he : e.IsRegular) :
    (e.outcome.apply e.response.responseId r).Recounts (xs ++ [e.response.toRow]) := by
  have hcount := h.count
  rw [if_pos ho] at hcount
  have hall : ∀ x ∈ (xs ++ [e.response.toRow]).dropLast, x.IsRetryable := by
    rw [List.dropLast_concat]
    exact h.open_retried ho
  have hnone : r.succeededAt = none := by
    simp only [isOpen, Bool.and_eq_true, Option.isNone_iff_eq_none] at ho
    exact ho.1
  have hresp := he.outcome
  cases hout : e.outcome with
  | succeeded time =>
    rw [hout] at hresp
    refine ⟨?_, by simp [Outcome.apply, Response.toRow], hall, ?_, ?_⟩
    · simp [Outcome.apply, isOpen, hcount]
    · intro hopen
      simp [Outcome.apply, isOpen] at hopen
    · simpa [Outcome.apply] using hresp
  | retried due =>
    rw [hout] at hresp
    refine ⟨?_, by simp [Outcome.apply, Response.toRow], hall, ?_, ?_⟩
    · have hopen : (Outcome.apply (.retried due) e.response.responseId r).isOpen := ho
      rw [if_pos hopen]
      simp [Outcome.apply, hcount]
    · intro _ x hx
      rcases List.mem_append.mp hx with hx | hx
      · exact h.open_retried ho x hx
      · rw [List.mem_singleton.mp hx]
        exact hresp
    · have hf := hresp.not_isSuccess
      simpa [Outcome.apply, hnone] using hf
  | failed time =>
    rw [hout] at hresp
    refine ⟨?_, by simp [Outcome.apply, Response.toRow], hall, ?_, ?_⟩
    · simp [Outcome.apply, isOpen, hcount]
    · intro hopen
      simp [Outcome.apply, isOpen] at hopen
    · simpa [Outcome.apply, hnone] using hresp

end Recounts
end AttemptRow

namespace Tables

/-- The responses of an attempt in the order in which they were recorded. -/
def recorded (t : Tables) (id : Uuid) : List Response := t.responses.filter (·.attemptId == id)

/-- Every attempt agrees with what is recorded of it. -/
def Recounted (t : Tables) : Prop := ∀ r ∈ t.attempts, r.Recounts (t.recorded r.attemptId)

variable {ends : Ending → Prop} {t t' : Tables}

/-- Nothing is recorded of an attempt that is not there. -/
theorem recorded_eq_nil (hs : t.Sound) {id : Uuid} (h : ∀ r ∈ t.attempts, r.attemptId ≠ id) :
    t.recorded id = [] := by
  rw [recorded, List.filter_eq_nil_iff]
  intro x hx hi
  obtain ⟨r, hr, hri⟩ := hs.responses x hx
  exact h r hr (hri.trans (beq_iff_eq.mp hi))

theorem Recounted.offer (h : t.Recounted) (hs : t.Sound) {r : AttemptRow} (fresh : r.IsFresh) :
    (t.offer r).Recounted := by
  unfold Tables.offer
  split
  · exact h
  · rename_i ht
    have hn := isTaken_eq_false (Bool.eq_false_iff.mpr ht)
    intro x hx
    rcases List.mem_append.mp hx with hx | hx
    · exact h x hx
    · rw [List.mem_singleton.mp hx]
      have hr : t.recorded r.attemptId = [] := recorded_eq_nil hs fun old ho => (hn old ho).1
      exact hr ▸ fresh.recounts

theorem Recounted.claim (h : t.Recounted) (c : Claimant) (now : Int) :
    (t.claim c now).2.Recounted := by
  unfold Tables.claim
  split
  · exact h
  · intro x hx
    obtain ⟨r, hr, rfl⟩ := mem_updateRows.mp hx
    split
    · exact (h r hr).claimedBy c now
    · exact h r hr

theorem Recounted.finish (h : t.Recounted) (hs : t.Sound) {e : Ending} (he : e.IsRegular)
    (held : t.attempts.any e.token.holds) (hf : t.finish? e = .ok t') : t'.Recounted := by
  obtain rfl := finish?_eq_ok hs.referencesUnchecked hf
  obtain ⟨own, hown, hh⟩ := List.any_eq_true.mp held
  have hoi : own.attemptId = e.token.attemptId := (ClaimToken.holds_iff.mp hh).1
  have hrec : ∀ id, (t.responses ++ [e.response.toRow]).filter (·.attemptId == id) =
      t.recorded id ++ if e.token.attemptId = id then [e.response.toRow] else [] := by
    intro id
    rw [List.filter_append, ← recorded, ← he.attemptId]
    by_cases hid : e.response.attemptId = id <;> simp [hid, Response.toRow]
  -- Only the row of the claim changes, and only its list of responses becomes longer.
  intro x hx
  obtain ⟨r, hr, rfl⟩ := mem_updateRows.mp hx
  change (if e.token.holds r then _ else r).Recounts (List.filter _ _)
  by_cases hrh : e.token.holds r
  · obtain ⟨hri, -, -, hro⟩ := ClaimToken.holds_iff.mp hrh
    simp only [if_pos hrh, (e.outcome.apply_frame _ r).1, hrec]
    rw [if_pos hri.symm]
    exact (h r hr).ended hro he
  · have hne : e.token.attemptId ≠ r.attemptId := by
      intro heq
      obtain rfl := List.inj_on_of_nodup_map hs.attemptIds hown hr (hoi.trans heq)
      exact hrh hh
    simp only [if_neg hrh, hrec]
    rw [if_neg hne, List.append_nil]
    exact h r hr

theorem Change.recounts (h : Change ends t t') (hs : t.Sound) (ht : t.Recounted)
    (he : ∀ e, ends e → e.IsRegular) : t'.Recounted := by
  cases h with
  | edit h =>
    cases h with
    | register h =>
      intro r hr
      rw [h.attempts] at hr
      rw [recorded, h.responses]
      exact ht r hr
    | claim c now => exact ht.claim c now
    | finish e hends held h => exact ht.finish hs (he e hends) held h
  | offer r fresh _ => exact ht.offer hs fresh

end Tables

/-- Whatever dispatchers, replays, workers and the recovery of events have done: if single calls record
outcomes only as workers do it, the responses of an attempt are as many as its retries, and one more
when it has ended; the attempt refers to the one recorded last; all before that one are failures that
could be retried; and the last is a success exactly when the attempt has succeeded. -/
theorem history_is_complete {onFile : Bool} {acts : List Act} {s : Store}
    (h : Acts (.create onFile) acts s) (regular : ∀ x, .call x ∈ acts → x.operation.IsRegular) :
    ∀ r ∈ s.tables.attempts,
      ((s.tables.recorded r.attemptId).length : Int) = r.retryCount + (if r.isOpen then 0 else 1) ∧
      r.responseId = (s.tables.recorded r.attemptId).getLast?.map (·.responseId) ∧
      r.responseId.bind s.tables.response? = (s.tables.recorded r.attemptId).getLast? ∧
      (∀ x ∈ (s.tables.recorded r.attemptId).dropLast, x.IsRetryable) ∧
      (r.succeededAt.isSome ↔
        ∃ x, (s.tables.recorded r.attemptId).getLast? = some x ∧ x.isSuccess) := by
  obtain ⟨calls, hrun, hmakes⟩ := h.run
  have hregular : ∀ x ∈ calls, x.operation.IsRegular := by
    intro x hx
    obtain ⟨a, ha, hax⟩ := hmakes x hx
    exact hax.isRegular fun y hy => regular y (hy ▸ ha)
  have hinv : s.tables.Sound ∧ s.tables.Recounted :=
    hrun.invariant (I := fun t => t.Sound ∧ t.Recounted) (Store.isIdle_create onFile)
      ⟨Tables.sound_empty, fun _ hr => absurd hr List.not_mem_nil⟩
      fun x hx _ _ hc ht => ⟨hc.sound ht.1, hc.recounts ht.1 ht.2
        fun e he => he.isRegular (hregular x hx)⟩
  intro r hr
  have hc := hinv.2 r hr
  refine ⟨hc.count, hc.responseId, ?_, hc.retried, hc.succeeded⟩
  rw [hc.responseId]
  cases hl : (s.tables.recorded r.attemptId).getLast? with
  | none => rfl
  | some x =>
    have hx : x ∈ s.tables.responses := List.mem_of_mem_filter (List.mem_of_getLast? hl)
    exact Tables.response?_eq_some hinv.1.toIndexed hx

namespace Sample

/-- Two events are dispatched, and the first attempt is claimed and abandoned. -/
def abandon : List Operation :=
  begin ++ [.ingest { event with eventId := .ofNat 5 } 0, .claim claimant 1]

def reaper : WorkerUnit := ⟨.default, .default, 0, none⟩

/-- The claim is released in the hundredth second. -/
def released : World := (reaper.reap 100000000 (world.runAll abandon)).2

/-- The other attempt succeeds, and then the first one fails in such a way that it is not repeated. -/
def conclude : List Operation :=
  [.claim claimant 200000000,
    .finalize { claimed 200000000 with attemptId := .ofNat 2 }
      { response 12 none with attemptId := .ofNat 2 } 200000001 none,
    .claim claimant 200000002,
    .finalize { claimed 200000002 with retryCount := 1 } (response 11 (some .invalidTarget))
      200000003 none]

/-- All of this, the release being what a worker does. -/
def retried : List Act :=
  (Call.inTurn world abandon).map .call ++
    .reap reaper 100000000 (world.runAll abandon) :: (Call.inTurn released conclude).map .call

theorem acts_retried : Acts (.create true) retried (released.runAll conclude).store :=
  (Acts.of_run (run_inTurn world abandon)).append
    (.reap (by rw [released]) (Acts.of_run (run_inTurn released conclude)))

theorem isRegular_retried (x : Call) (hx : .call x ∈ retried) : x.operation.IsRegular := by
  have hm : x.operation ∈ abandon ++ conclude := by
    rcases List.mem_append.mp hx with hx | hx
    · obtain ⟨y, hy, hxy⟩ := List.mem_map.mp hx
      cases hxy
      exact List.mem_append_left _ (operation_mem_of_mem_inTurn hy)
    · obtain ⟨y, hy, hxy⟩ := List.mem_map.mp (List.mem_of_ne_of_mem Act.noConfusion hx)
      cases hxy
      exact List.mem_append_right _ (operation_mem_of_mem_inTurn hy)
  simp only [abandon, begin, conclude, List.cons_append, List.nil_append, List.mem_cons,
    List.not_mem_nil, or_false] at hm
  rcases hm with ho | ho | ho | ho | ho | ho | ho | ho | ho <;> rw [ho]
  any_goals trivial
  · exact ⟨rfl, none, rfl, rfl⟩
  · exact ⟨rfl, _, ⟨.default, ⟨[], 0⟩, none, _, rfl, rfl⟩, rfl⟩

end Sample

open Sample in
/-- Of two attempts the one that was tried again has failed and has two responses, of which the first
called for the retry; the other one has succeeded with its only response. -/
theorem hopeless_history : ∃ r r', (released.runAll conclude).store.tables.attempts = [r, r'] ∧
    (r.retryCount = 1 ∧ r.isOpen = false) ∧ (r'.retryCount = 0 ∧ r'.isOpen = false) ∧
    (((released.runAll conclude).store.tables.recorded r.attemptId).length : Int) = 2 ∧
    (∀ x ∈ ((released.runAll conclude).store.tables.recorded r.attemptId).dropLast,
      x.IsRetryable) ∧
    (((released.runAll conclude).store.tables.recorded r'.attemptId).length : Int) = 1 := by
  have hshown : (released.runAll conclude).store.tables.attempts.map
      (fun r => (r.retryCount, r.isOpen)) = [(1, false), (0, false)] := by decide +kernel
  obtain ⟨r, _, hrows, hr, hrest⟩ := List.map_eq_cons_iff.mp hshown
  obtain ⟨r', _, rfl, hr', hnil⟩ := List.map_eq_cons_iff.mp hrest
  obtain rfl := List.map_eq_nil_iff.mp hnil
  obtain ⟨hcount, hended⟩ := Prod.mk.inj hr
  obtain ⟨hcount', hended'⟩ := Prod.mk.inj hr'
  have hr : r ∈ (released.runAll conclude).store.tables.attempts := by
    rw [hrows]
    exact List.mem_cons_self
  have hr' : r' ∈ (released.runAll conclude).store.tables.attempts := by
    rw [hrows]
    exact List.mem_cons_of_mem _ List.mem_cons_self
  have hcomplete := history_is_complete acts_retried isRegular_retried
  obtain ⟨hlength, -, -, hretryable, -⟩ := hcomplete r hr
  have hlength' := (hcomplete r' hr').1
  rw [hcount, hended] at hlength
  rw [hcount', hended'] at hlength'
  exact ⟨r, r', hrows, ⟨hcount, hended⟩, ⟨hcount', hended'⟩, hlength, hretryable, hlength'⟩

end WebhookDelivery
