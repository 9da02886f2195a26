import WebhookDelivery.Proofs.FanOut
import WebhookDelivery.Proofs.Requests

/-!
# WebhookDelivery.Proofs.LifeCycle

The life cycle of an attempt, which the store keeps in columns that may be null.

* `Phase`, `Move`, `AttemptRow.Moves`: the states of an attempt, the edges between them, and what an
  edge does to a row.
* `Tables.Advances`: each attempt that was there stays or moves along one edge, and what is added is
  fresh. `Call.advances` finds the edge of a single call; `Advances.trans` says that calls which claim
  nothing do not move an attempt twice, so neither does a request that is made of them.
* `AttemptRow.IsShaped`: how the columns of a row go together.
* `Tables.Retains`: what has ended and what is recorded stays, also where rows are changed from
  outside the engine.
* `attempts_follow_life_cycle`: the result about all stores to which requests lead.
-/

namespace WebhookDelivery

/-- Whether an attempt that is free waits or is pending is for the clock to tell. -/
inductive Phase where
  | free
  | claimed
  | succeeded
  | failed
  deriving DecidableEq, Repr

inductive Move where
  | claim
  | retry
  | succeed
  | fail
  deriving DecidableEq, Repr

namespace Move

def source : Move → Phase
  | claim => .free
  | _ => .claimed

def target : Move → Phase
  | claim => .claimed
  | retry => .free
  | succeed => .succeeded
  | fail => .failed

theorem target_injective {m m' : Move} (h : m.target = m'.target) : m = m' := by
  cases m <;> cases m' <;> first | rfl | cases h

theorem target_ne_source (m : Move) : m.target ≠ m.source := by
  cases m <;> decide

/-- Only to be claimed does an attempt leave a state that another edge leads to. -/
theorem target_ne_source_of_ne_claim {m m' : Move} (h : m ≠ .claim) (h' : m' ≠ .claim) :
    m.target ≠ m'.source := by
  cases m <;> cases m' <;> first | exact absurd rfl h | exact absurd rfl h' | decide

end Move

namespace AttemptRow

def phase (r : AttemptRow) : Phase :=
  if r.succeededAt.isSome then .succeeded
  else if r.failedAt.isSome then .failed
  else if r.pickedAt.isSome then .claimed
  else .free

/-- The row moves along an edge; the response of an execution is one of those that are new. -/
def Moves (r : AttemptRow) (new : Uuid → Prop) (m : Move) (r' : AttemptRow) : Prop :=
  r.phase = m.source ∧ match m with
    | .claim => ∃ time name version, (∀ due, r.delayUntil = some due → due ≤ time) ∧
      r' = { r with
        pickedAt := some time, workerName := some name, workerVersion := some version }
    | .retry => ∃ due id, new id ∧ r.responseId ≠ some id ∧
      r' = { r with
        retryCount := r.retryCount + 1, delayUntil := some due, pickedAt := none
        workerName := none, workerVersion := none, responseId := some id }
    | .succeed => ∃ time id, new id ∧ r.responseId ≠ some id ∧
      r' = { r with succeededAt := some time, responseId := some id }
    | .fail => ∃ time id, new id ∧ r.responseId ≠ some id ∧
      r' = { r with failedAt := some time, responseId := some id }

theorem isOpen_iff {r : AttemptRow} : r.isOpen ↔ r.succeededAt = none ∧ r.failedAt = none := by
  simp [isOpen]

theorem phase_of_isOpen {r : AttemptRow} (h : r.isOpen) :
    r.phase = if r.pickedAt.isSome then .claimed else .free := by
  obtain ⟨hs, hf⟩ := isOpen_iff.mp h
  simp [phase, hs, hf]

theorem isOpen_of_phase {r : AttemptRow} {m : Move} (h : r.phase = m.source) : r.isOpen := by
  rw [isOpen_iff]
  unfold phase at h
  split at h
  · cases m <;> cases h
  · split at h
    · cases m <;> cases h
    · rename_i hs hf
      exact ⟨by simpa using hs, by simpa using hf⟩

theorem pickedAt_of_phase {r : AttemptRow} {m : Move} (h : r.phase = m.source) (hm : m ≠ .claim) :
    r.pickedAt.isSome := by
  have hp := phase_of_isOpen (isOpen_of_phase h)
  rw [h] at hp
  split at hp
  · assumption
  · cases m <;> first | exact absurd rfl hm | cases hp

theorem IsFresh.phase {r : AttemptRow} (h : r.IsFresh) : r.phase = .free := by
  rw [phase_of_isOpen h.isOpen, h.pickedAt]
  rfl

namespace Moves

variable {r r' : AttemptRow} {new new' : Uuid → Prop} {m m' : Move}

theorem mono (h : r.Moves new m r') (hn : ∀ id, new id → new' id) : r.Moves new' m r' := by
  obtain ⟨hp, h⟩ := h
  refine ⟨hp, ?_⟩
  cases m with
  | claim => exact h
  | _ =>
    obtain ⟨time, id, hid, h⟩ := h
    exact ⟨time, id, hn id hid, h⟩

theorem phase (h : r.Moves new m r') : r'.phase = m.target := by
  obtain ⟨hp, h⟩ := h
  obtain ⟨hs, hf⟩ := isOpen_iff.mp (isOpen_of_phase hp)
  cases m with
  | claim =>
    obtain ⟨time, name, version, -, rfl⟩ := h
    simp [AttemptRow.phase, hs, hf, Move.target]
  | retry =>
    obtain ⟨due, id, -, -, rfl⟩ := h
    simp [AttemptRow.phase, hs, hf, Move.target]
  | succeed =>
    obtain ⟨time, id, -, -, rfl⟩ := h
    simp [AttemptRow.phase, Move.target]
  | fail =>
    obtain ⟨time, id, -, -, rfl⟩ := h
    simp [AttemptRow.phase, hs, Move.target]

theorem unique (h : r.Moves new m r') (h' : r.Moves new' m' r') : m = m' :=
  Move.target_injective (h.phase.symm.trans h'.phase)

theorem ne (h : r.Moves new m r') : r' ≠ r := by
  intro heq
  have ht := h.phase
  rw [heq, h.1] at ht
  exact m.target_ne_source ht.symm

theorem attemptId (h : r.Moves new m r') : r'.attemptId = r.attemptId := by
  obtain ⟨-, h⟩ := h
  cases m with
  | claim =>
    obtain ⟨_, _, _, -, rfl⟩ := h
    rfl
  | _ =>
    obtain ⟨_, _, -, -, rfl⟩ := h
    rfl

theorem retryCount_le (h : r.Moves new m r') : r.retryCount ≤ r'.retryCount := by
  obtain ⟨-, h⟩ := h
  cases m with
  | claim =>
    obtain ⟨_, _, _, -, rfl⟩ := h
    exact Int.le_refl _
  | retry =>
    obtain ⟨_, _, -, -, rfl⟩ := h
    dsimp only
    omega
  | _ =>
    obtain ⟨_, _, -, -, rfl⟩ := h
    exact Int.le_refl _

end Moves

/-! ## The shape of a row -/

/-- The columns of the claim are null together, and a row that has ended was picked, has a response,
and has either succeeded or failed. -/
structure IsShaped (r : AttemptRow) : Prop where
  workerName : r.workerName.isSome = r.pickedAt.isSome
  workerVersion : r.workerVersion.isSome = r.pickedAt.isSome
  ended : r.isOpen = false → r.pickedAt.isSome ∧ r.responseId.isSome ∧
    r.succeededAt.isSome = !r.failedAt.isSome

theorem IsFresh.isShaped {r : AttemptRow} (h : r.IsFresh) : r.IsShaped where
  workerName := by simp [h.workerName, h.pickedAt]
  workerVersion := by simp [h.workerVersion, h.pickedAt]
  ended := by simp [h.isOpen]

theorem Moves.isShaped {r r' : AttemptRow} {new : Uuid → Prop} {m : Move} (h : r.Moves new m r')
    (hr : r.IsShaped) : r'.IsShaped := by
  obtain ⟨hp, h⟩ := h
  have hopen := isOpen_of_phase hp
  obtain ⟨hs, hf⟩ := isOpen_iff.mp hopen
  cases m with
  | claim =>
    obtain ⟨time, name, version, -, rfl⟩ := h
    refine ⟨rfl, rfl, fun ho => ?_⟩
    rw [isOpen] at ho hopen
    exact absurd (hopen.symm.trans ho) (by decide)
  | retry =>
    obtain ⟨due, id, -, -, rfl⟩ := h
    refine ⟨rfl, rfl, fun ho => ?_⟩
    rw [isOpen] at ho hopen
    exact absurd (hopen.symm.trans ho) (by decide)
  | succeed =>
    have hpicked : r.pickedAt.isSome := pickedAt_of_phase hp (by decide)
    obtain ⟨time, id, -, -, rfl⟩ := h
    exact ⟨hr.workerName, hr.workerVersion, fun _ => ⟨hpicked, rfl, by simp [hf]⟩⟩
  | fail =>
    have hpicked : r.pickedAt.isSome := pickedAt_of_phase hp (by decide)
    obtain ⟨time, id, -, -, rfl⟩ := h
    exact ⟨hr.workerName, hr.workerVersion, fun _ => ⟨hpicked, rfl, by simp [hs]⟩⟩

end AttemptRow

namespace Tables

/-! ## Steps -/

/-- The identifier is that of a response which has been recorded in between. -/
def NewIn (t t' : Tables) (id : Uuid) : Prop :=
  (∀ x ∈ t.responses, x.responseId ≠ id) ∧ ∃ x ∈ t'.responses, x.responseId = id

structure Advances (allowed : Move → Prop) (t t' : Tables) : Prop where
  attempts : ∃ f added, t'.attempts = t.attempts.map f ++ added ∧ (∀ r ∈ added, r.IsFresh) ∧
    ∀ r ∈ t.attempts, f r = r ∨ ∃ m, allowed m ∧ r.Moves (t.NewIn t') m (f r)
  responses : ∃ more, t'.responses = t.responses ++ more

namespace Advances

variable {allowed allowed' : Move → Prop} {t t' u : Tables}

theorem mono (h : Advances allowed t t') (ha : ∀ m, allowed m → allowed' m) :
    Advances allowed' t t' := by
  obtain ⟨f, added, he, hn, hm⟩ := h.attempts
  refine ⟨⟨f, added, he, hn, fun r hr => (hm r hr).imp_right ?_⟩, h.responses⟩
  rintro ⟨m, hallowed, hmove⟩
  exact ⟨m, ha m hallowed, hmove⟩

/-- Rows are added, and no other is changed. -/
theorem of_append {added : List AttemptRow} (ha : t'.attempts = t.attempts ++ added)
    (hn : ∀ r ∈ added, r.IsFresh) (hr : ∃ more, t'.responses = t.responses ++ more) :
    Advances allowed t t' :=
  ⟨⟨id, added, by rw [List.map_id, ha], hn, fun _ _ => .inl rfl⟩, hr⟩

theorem of_registers (h : t.Registers t') : Advances allowed t t' := by
  have hnone : t'.attempts = t.attempts ++ [] := by rw [h.attempts, List.append_nil]
  exact of_append hnone (fun _ h => absurd h List.not_mem_nil)
    ⟨[], by rw [h.responses, List.append_nil]⟩

theorem refl (t : Tables) : Advances allowed t t := of_registers (.refl t)

/-- An attempt that has moved without being claimed cannot do so again, nor can one that is new. -/
theorem trans (h : Advances (· ≠ .claim) t t') (h' : Advances (· ≠ .claim) t' u) :
    Advances (· ≠ .claim) t u := by
  obtain ⟨f, added, he, hn, hm⟩ := h.attempts
  obtain ⟨g, added', he', hn', hm'⟩ := h'.attempts
  obtain ⟨more, hr⟩ := h.responses
  obtain ⟨more', hr'⟩ := h'.responses
  have hearlier : ∀ id, t.NewIn t' id → t.NewIn u id := by
    rintro id ⟨hold, x, hx, hid⟩
    exact ⟨hold, x, by rw [hr']; exact List.mem_append_left _ hx, hid⟩
  have hlater : ∀ id, t'.NewIn u id → t.NewIn u id := by
    rintro id ⟨hold, hx⟩
    exact ⟨fun y hy => hold y (by rw [hr]; exact List.mem_append_left _ hy), hx⟩
  have hadded : ∀ r ∈ added, g r = r := by
    intro r hr
    rcases hm' r (by rw [he]; exact List.mem_append_right _ hr) with hg | ⟨m, hne, hp, -⟩
    · exact hg
    · rw [(hn r hr).phase] at hp
      cases m <;> first | exact absurd rfl hne | cases hp
  refine ⟨⟨g ∘ f, added ++ added', ?_, ?_, fun r hr => ?_⟩, more ++ more', ?_⟩
  · have hmap : added.map g = added := by
      rw [List.map_congr_left hadded, List.map_id']
    rw [he', he, List.map_append, List.map_map, hmap, List.append_assoc]
  · intro r hr
    rcases List.mem_append.mp hr with hr | hr
    · exact hn r hr
    · exact hn' r hr
  · have hr' : f r ∈ t'.attempts := by
      rw [he]
      exact List.mem_append_left _ (List.mem_map_of_mem hr)
    dsimp only [Function.comp]
    rcases hm r hr with hf | ⟨m, hne, hmove⟩
    · rcases hm' (f r) hr' with hg | ⟨m', hne', hmove'⟩
      · exact .inl (hg.trans hf)
      · rw [hf] at hmove' ⊢
        exact .inr ⟨m', hne', hmove'.mono hlater⟩
    · rcases hm' (f r) hr' with hg | ⟨m', hne', hmove'⟩
      · rw [hg]
        exact .inr ⟨m, hne, hmove.mono hearlier⟩
      · exact absurd (hmove.phase.symm.trans hmove'.1)
          (Move.target_ne_source_of_ne_claim hne hne')
  · rw [hr', hr, List.append_assoc]

theorem isShaped (h : Advances allowed t t') (ht : ∀ r ∈ t.attempts, r.IsShaped) :
    ∀ r ∈ t'.attempts, r.IsShaped := by
  obtain ⟨f, added, he, hn, hm⟩ := h.attempts
  intro r hr
  rw [he] at hr
  rcases List.mem_append.mp hr with hr | hr
  · obtain ⟨old, ho, rfl⟩ := List.mem_map.mp hr
    rcases hm old ho with hf | ⟨m, -, hmove⟩
    · rw [hf]
      exact ht old ho
    · exact hmove.isShaped (ht old ho)
  · exact (hn r hr).isShaped

/-- An attempt is found again under its identifier. -/
theorem attempt? (h : Advances allowed t t') (hi : t'.Indexed) {r : AttemptRow}
    (hr : r ∈ t.attempts) : ∃ r', t'.attempt? r.attemptId = some r' ∧
      (r' = r ∨ ∃ m, r.Moves (t.NewIn t') m r') := by
  obtain ⟨f, added, he, -, hm⟩ := h.attempts
  have hf : f r ∈ t'.attempts := by
    rw [he]
    exact List.mem_append_left _ (List.mem_map_of_mem hr)
  have hfind := attempt?_eq_some hi hf
  rcases hm r hr with hsame | ⟨m, -, hmove⟩
  · rw [hsame] at hfind
    exact ⟨r, hfind, .inl rfl⟩
  · rw [hmove.attemptId] at hfind
    exact ⟨f r, hfind, .inr ⟨m, hmove⟩⟩

end Advances

theorem NewIn.ne {t t' : Tables} {id : Uuid} (h : t.NewIn t' id) (ha : t.Answered)
    {r : AttemptRow} (hr : r ∈ t.attempts) : r.responseId ≠ some id := by
  intro hid
  obtain ⟨x, hx, hxi⟩ := ha r hr id hid
  exact h.1 x hx hxi

theorem advances_claim {t : Tables} (hs : t.Indexed) (c : Claimant) (now : Int) :
    Advances (· = .claim) t (t.claim c now).2 := by
  have hc : Edit (fun _ => False) t (t.claim c now).2 := .claim c now
  obtain ⟨f, ha, hf⟩ := hc.attempts hs
  refine ⟨⟨f, [], by rw [ha, List.append_nil], fun _ h => absurd h List.not_mem_nil, fun r hr => ?_⟩,
    [], by rw [(t.claim_frame c now).2.2, List.append_nil]⟩
  have hr' := hf r hr
  generalize f r = r' at hr' ⊢
  cases hr' with
  | same => exact .inl rfl
  | claimed c now free due =>
    obtain ⟨hopen, hpicked⟩ := Bool.and_eq_true_iff.mp free
    refine .inr ⟨.claim, rfl, ?_, now, c.name, c.version, fun d hd => ?_, rfl⟩
    · have hnone : r.pickedAt = none := by simpa using hpicked
      rw [AttemptRow.phase_of_isOpen hopen, hnone]
      rfl
    · simpa [AttemptRow.isDue, hd] using due
  | ended e _ he => exact he.elim

theorem advances_finish {t t' : Tables} (ht : t.Intact) {e : Ending} (h : t.finish? e = .ok t') :
    Advances (· ≠ .claim) t t' := by
  have hold := finish?_response ht.sound.referencesUnchecked h
  obtain rfl := finish?_eq_ok ht.sound.referencesUnchecked h
  refine ⟨⟨_, [], (List.append_nil _).symm, fun _ h => absurd h List.not_mem_nil, fun r hr => ?_⟩,
    _, rfl⟩
  generalize ht' : ({ t with
    attempts := updateRows e.token.holds (e.outcome.apply e.response.responseId) t.attempts
    responses := t.responses ++ [e.response.toRow] } : Tables) = t'
  have hnew : t.NewIn t' e.response.responseId :=
    ⟨hold, e.response.toRow, by rw [← ht']; exact List.mem_append_right _ List.mem_cons_self, rfl⟩
  have hne : r.responseId ≠ some e.response.responseId := hnew.ne ht.answered hr
  by_cases hh : e.token.holds r
  · right
    rw [if_pos hh]
    obtain ⟨-, hpicked, -, hopen⟩ := ClaimToken.holds_iff.mp hh
    have hp : r.phase = .claimed := by
      rw [AttemptRow.phase_of_isOpen hopen, hpicked]
      rfl
    cases e.outcome with
    | succeeded time => exact ⟨.succeed, by decide, hp, time, _, hnew, hne, rfl⟩
    | retried due => exact ⟨.retry, by decide, hp, due, _, hnew, hne, rfl⟩
    | failed time => exact ⟨.fail, by decide, hp, time, _, hnew, hne, rfl⟩
  · left
    rw [if_neg hh]

end Tables

namespace Call

variable {x : Call} {allowed : Move → Prop}

/-- Dispatch and replay only add attempts. -/
theorem advances_of_creates (hi : x.before.IsIdle) (hs : x.before.tables.Indexed)
    (ho : x.operation.creates) : Tables.Advances allowed x.before.tables x.after.tables := by
  have hr := responses_after hi hs
  cases ha : x.answer with
  | error e =>
    rw [tables_of_error hi ha]
    exact .refl _
  | ok a =>
    cases hop : x.operation with
    | ingest e now =>
      obtain ⟨new, hnew, hfresh⟩ := x.world.data.ingest_attempts e now
      rw [← tables_of_ingest hop ha] at hnew
      exact .of_append hnew (fun r hr => (hfresh r hr).1) hr
    | replay eventId application subscription now =>
      obtain ⟨-, targets, -, -, ht⟩ := tables_of_replay hop ha
      obtain ⟨-, new, hnew, hfresh⟩ :=
        x.world.data.replayed_attempts eventId application now targets
      rw [← ht] at hnew
      exact .of_append hnew (fun r hr => (hfresh r hr).1) hr
    | _ =>
      rw [hop] at ho
      cases ho

theorem advances_of_claim (hi : x.before.IsIdle) (hs : x.before.tables.Indexed)
    (ho : x.operation.isClaim) : Tables.Advances (· = .claim) x.before.tables x.after.tables := by
  cases ha : x.answer with
  | error e =>
    rw [tables_of_error hi ha]
    exact .refl _
  | ok a =>
    cases hop : x.operation with
    | claim c now =>
      have hm := ((Engine.meets_claimNext c now).map fun claim => Answer.claims claim.toList) x.world
      unfold answer at ha
      rw [hop] at ha
      obtain ⟨_, ⟨hd, -⟩, -⟩ := hm.2 a ha
      have ht : x.after.tables = (x.before.tables.claim c now).2 := by
        unfold after
        rw [hop]
        exact congrArg Data.tables hd
      rw [ht]
      exact Tables.advances_claim hs c now
    | _ =>
      rw [hop] at ho
      cases ho

theorem advances_of_finalize (ht : x.before.tables.Intact) {claimed : Attempt} {r : Response}
    {now : Int} {retryAt : Option Int} (ho : x.operation = .finalize claimed r now retryAt)
    {a : Answer} (ha : x.answer = .ok a) :
    Tables.Advances (· ≠ .claim) x.before.tables x.after.tables := by
  have hm := ((Engine.meets_finalize claimed r now retryAt).map Answer.flag) x.world
  have ha' := ha
  unfold answer at ha'
  rw [ho] at ha'
  obtain ⟨held, ⟨pickedAt, hp, -, hf⟩, rfl⟩ := hm.2 a ha'
  cases held with
  | false =>
    rw [if_neg Bool.false_ne_true] at hf
    have hsame : x.after.tables = x.before.tables := by
      unfold after
      rw [ho]
      exact congrArg Data.tables hf
    rw [hsame]
    exact .refl _
  | true =>
    have hends : x.Ends ⟨⟨claimed.attemptId, pickedAt.micros, claimed.workerName⟩,
        Engine.outcomeOf r now retryAt, r⟩ := by
      refine ⟨_, ha, ?_⟩
      rw [ho]
      refine ⟨?_, rfl, rfl⟩
      rw [Attempt.token?, hp]
      rfl
    exact Tables.advances_finish ht hends.finish.2

/-- A call that claims nothing moves attempts only as a claim ends. -/
theorem advances (hi : x.before.IsIdle) (ht : x.before.tables.Intact)
    (ho : x.operation.isClaim = false) :
    Tables.Advances (· ≠ .claim) x.before.tables x.after.tables := by
  cases ha : x.answer with
  | error e =>
    rw [tables_of_error hi ha]
    exact .refl _
  | ok a =>
    have hcatalogue : x.operation.isCatalogue →
        Tables.Advances (· ≠ .claim) x.before.tables x.after.tables :=
      fun h => .of_registers ((Operation.meets_registers h x.world).2 a ha)
    have hcreates : x.operation.creates →
        Tables.Advances (· ≠ .claim) x.before.tables x.after.tables :=
      advances_of_creates hi ht.sound.toIndexed
    cases hop : x.operation with
    | finalize claimed r now retryAt => exact advances_of_finalize ht hop ha
    | claim c now =>
      rw [hop] at ho
      cases ho
    | ingest e now => exact hcreates (by rw [hop]; rfl)
    | replay eventId application subscription now => exact hcreates (by rw [hop]; rfl)
    | _ => exact hcatalogue (by rw [hop]; rfl)

end Call

/-- A run that claims nothing moves no attempt twice. -/
theorem Run.advances {s t : Store} {calls : List Call} (h : Run s calls t) (hi : s.IsIdle)
    (ht : s.tables.Intact) (hc : ∀ x ∈ calls, x.operation.isClaim = false) :
    Tables.Advances (· ≠ .claim) s.tables t.tables := by
  induction h with
  | nil => exact .refl _
  | @cons x rest _ _ ih =>
    rw [List.forall_mem_cons] at hc
    exact (Call.advances hi ht hc.1).trans
      (ih (Call.isIdle_after hi) (Call.intact_after hi ht) hc.2)

namespace Request

theorem advances (q : Request) {w : World} (hi : w.store.IsIdle) (ht : w.store.tables.Intact) :
    Tables.Advances (fun _ => True) w.store.tables (q.run w).2.store.tables := by
  rcases q.run_calls w with ⟨id, time, rfl⟩ | ⟨calls, hrun, hc⟩
  · exact .of_registers (registers_markDispatched hi id time)
  · cases hq : q.isClaim with
    | false => exact (hrun.advances hi ht fun x hx => hc x hx hq).mono fun _ _ => trivial
    | true =>
      cases q with
      | operation o =>
        have hx := Call.advances_of_claim (x := ⟨o, w⟩) hi ht.sound.toIndexed hq
        rw [run, Engine.store_map]
        exact hx.mono fun _ _ => trivial
      | _ => cases hq

end Request

/-! ## What stays -/

/-- A row that has ended can neither be claimed nor can a claim of it end. -/
theorem AttemptRow.Evolves.eq_of_ended {ends : Ending → Prop} {r r' : AttemptRow}
    (h : r.Evolves ends r') (hr : r.isOpen = false) : r' = r := by
  cases h with
  | same => rfl
  | claimed c now free _ => simp [isFree, hr] at free
  | ended e held _ =>
    have ho := (ClaimToken.holds_iff.mp held).2.2.2
    rw [hr] at ho
    cases ho

namespace Tables

/-- What has ended and what is recorded is there unchanged. -/
structure Retains (t t' : Tables) : Prop where
  attempts : ∀ r ∈ t.attempts, r.isOpen = false → r ∈ t'.attempts
  responses : ∀ x ∈ t.responses, x ∈ t'.responses

theorem Retains.refl (t : Tables) : t.Retains t := ⟨fun _ h _ => h, fun _ h => h⟩

theorem Retains.trans {t u v : Tables} (h : t.Retains u) (h' : u.Retains v) : t.Retains v :=
  ⟨fun r hr ho => h'.attempts r (h.attempts r hr ho) ho,
    fun x hx => h'.responses x (h.responses x hx)⟩

theorem Change.retains {ends : Ending → Prop} {t t' : Tables} (h : Change ends t t')
    (hs : t.Indexed) : t.Retains t' := by
  refine ⟨fun r hr ho => ?_, fun x hx => ?_⟩
  · rcases h.attempts hs with ⟨new, -, -, ha⟩ | ⟨f, ha, hf⟩
    · rw [ha]
      exact List.mem_append_left _ hr
    · rw [ha, ← (hf r hr).eq_of_ended ho]
      exact List.mem_map_of_mem hr
  · obtain ⟨more, hm⟩ := h.responses hs
    rw [hm]
    exact List.mem_append_left _ hx

/-- Only rows that are open can be edited, and their identifiers and keys stay unique. -/
theorem checkEdited_eq_ok {t : Tables} {old new : AttemptRow} (h : t.checkEdited old new = .ok ()) :
    old.isOpen ∧ ∀ r ∈ t.attempts, r.attemptId ≠ old.attemptId →
      r.attemptId ≠ new.attemptId ∧ r.dispatchKey ≠ new.dispatchKey := by
  unfold checkEdited at h
  dsimp only at h
  split at h
  · cases h
  · split at h
    · cases h
    · rename_i ho
      split at h
      · cases h
      · split at h
        · cases h
        · rename_i hids
          split at h
          · cases h
          · rename_i hkeys
            have hother : ∀ r ∈ t.attempts, r.attemptId ≠ old.attemptId →
                r ∈ t.attempts.filter fun r => r.attemptId != old.attemptId :=
              fun r hr hne => List.mem_filter.mpr ⟨hr, by simpa using hne⟩
            rw [List.any_eq_true] at hids hkeys
            exact ⟨by simpa using ho, fun r hr hne =>
              ⟨fun heq => hids ⟨r, hother r hr hne, beq_iff_eq.mpr heq⟩,
                fun heq => hkeys ⟨r, hother r hr hne, beq_iff_eq.mpr heq⟩⟩⟩

/-- One row takes the place of another, and no other row has its value in a column. -/
theorem nodup_map_replace {β : Type} {f : AttemptRow → β} {rows : List AttemptRow} {id : Uuid}
    {new : AttemptRow} (hids : (rows.map (·.attemptId)).Nodup) (h : (rows.map f).Nodup)
    (hne : ∀ r ∈ rows, r.attemptId ≠ id → f r ≠ f new) :
    ((rows.map fun r => if r.attemptId = id then new else r).map f).Nodup := by
  rw [List.map_map]
  refine h.of_map.map_on fun r hr x hx heq => ?_
  simp only [Function.comp] at heq
  split at heq <;> split at heq
  · rename_i hri hxi
    exact List.inj_on_of_nodup_map hids hr hx (hri.trans hxi.symm)
  · rename_i hri hxi
    exact absurd heq.symm (hne x hx hxi)
  · rename_i hri hxi
    exact absurd heq (hne r hr hri)
  · exact List.inj_on_of_nodup_map h hr hx heq

theorem editAttempt_eq_ok {t t' : Tables} {id : Uuid} {edit : AttemptRow.Edit} {n : Nat}
    (hs : t.Indexed) (h : t.editAttempt id edit = .ok (n, t')) : t'.Indexed ∧ t.Retains t' := by
  unfold editAttempt at h
  cases hold : t.attempt? id with
  | none =>
    rw [hold] at h
    cases h
    exact ⟨hs, .refl t⟩
  | some old =>
    rw [hold] at h
    dsimp only at h
    obtain ⟨hm, rfl⟩ : old ∈ t.attempts ∧ old.attemptId = id :=
      ⟨List.mem_of_find?_eq_some hold, by simpa using List.find?_some hold⟩
    cases hnew : edit old with
    | error e =>
      rw [hnew] at h
      cases h
    | ok new =>
      rw [hnew] at h
      dsimp only at h
      split at h
      · cases h
      · rename_i hc
        obtain ⟨ho, hne⟩ := checkEdited_eq_ok hc
        cases h
        refine ⟨{ hs with attemptIds := ?_, dispatchKeys := ?_ }, fun r hr hclosed => ?_,
          fun _ hx => hx⟩
        · exact nodup_map_replace hs.attemptIds hs.attemptIds fun r hr hi => (hne r hr hi).1
        · exact nodup_map_replace hs.attemptIds hs.dispatchKeys fun r hr hi => (hne r hr hi).2
        · refine List.mem_map.mpr ⟨r, hr, if_neg fun hri => ?_⟩
          obtain rfl := List.inj_on_of_nodup_map hs.attemptIds hr hm hri
          rw [hclosed] at ho
          cases ho

theorem editAttempt_frame {t t' : Tables} {id : Uuid} {edit : AttemptRow.Edit} {n : Nat}
    (h : t.editAttempt id edit = .ok (n, t')) :
    t'.events = t.events ∧ t'.subscriptions = t.subscriptions := by
  unfold editAttempt at h
  repeat' split at h
  all_goals cases h
  all_goals exact ⟨rfl, rfl⟩

end Tables

namespace Store

variable {s t : Store}

theorem Asks.retains (h : s.Asks t) (hi : s.IsIdle) (hs : s.tables.Indexed) :
    t.IsIdle ∧ t.tables.Indexed ∧ s.tables.Retains t.tables := by
  obtain ⟨q, w, rfl, rfl⟩ := h
  have hinv := (q.changes hi).invariant (I := fun t => t.Indexed ∧ w.store.tables.Retains t)
    ⟨hs, .refl _⟩ fun _ _ hc ht => ⟨hc.indexed ht.1, ht.2.trans (hc.retains ht.1)⟩
  exact ⟨q.isIdle hi, hinv⟩

/-- A change from outside the engine is refused, or it edits an attempt. -/
theorem Tampers.tables (h : s.Tampers t) (hi : s.IsIdle) : t.IsIdle ∧
    (t.tables = s.tables ∨ ∃ id edit n, s.tables.editAttempt id edit = .ok (n, t.tables)) := by
  -- A transaction that is refused leaves the tables as they were.
  have hall : ∀ (name : TableName) (f : Tables → Except StatementError (Nat × Tables)) (w : World),
      w.store = s →
        let v := (Engine.atomically (do Engine.touch name; Engine.statement f) w).2
        v.store.IsIdle ∧ (v.store.tables = s.tables ∨
          ∃ n, f s.tables = .ok (n, v.store.tables)) := by
    rintro name f w rfl
    obtain ⟨hc, hm⟩ := Engine.Meets.atomically ((Engine.meets_touch name).bind fun _ =>
      Engine.meets_statement f) w
    refine ⟨⟨hc.isOpen.trans hi.isOpen, hc.inTransaction.trans hi.inTransaction⟩, ?_⟩
    cases hr : (Engine.atomically (do Engine.touch name; Engine.statement f) w).1 with
    | error e => exact .inl (Engine.Reverts.atomically _ w hi.inTransaction e hr)
    | ok n =>
      obtain ⟨_, _, rfl, ht, -⟩ := hm n hr
      exact .inr ⟨n, ht⟩
  obtain ⟨w, hw, ⟨id, edit, rfl⟩ | ⟨id, rfl⟩⟩ := h
  · obtain ⟨hv, htables⟩ := hall .attempt (·.editAttempt id edit) w hw
    exact ⟨hv, htables.imp_right fun ⟨n, hn⟩ => ⟨id, edit, n, hn⟩⟩
  · obtain ⟨hv, htables⟩ := hall .response (·.editResponse id) w hw
    refine ⟨hv, .inl (htables.elim (fun h => h) fun ⟨n, hn⟩ => ?_)⟩
    unfold Tables.editResponse at hn
    split at hn
    · cases hn
    · exact (congrArg Prod.snd (Except.ok.inj hn)).symm

/-- What has ended or is recorded is left alone. -/
theorem Tampers.retains (h : s.Tampers t) (hi : s.IsIdle) (hs : s.tables.Indexed) :
    t.IsIdle ∧ t.tables.Indexed ∧ s.tables.Retains t.tables := by
  obtain ⟨hi', heq | ⟨id, edit, n, he⟩⟩ := h.tables hi
  · rw [heq]
    exact ⟨hi', hs, .refl _⟩
  · exact ⟨hi', Tables.editAttempt_eq_ok hs he⟩

theorem Drifts.retains (h : s.Drifts t) (hi : s.IsIdle) (hs : s.tables.Indexed) :
    t.IsIdle ∧ t.tables.Indexed ∧ s.tables.Retains t.tables := by
  induction h with
  | refl => exact ⟨hi, hs, .refl _⟩
  | tail _ hstep ih =>
    obtain ⟨hi', hs', hr⟩ := ih
    obtain ⟨hi'', hs'', hr'⟩ := hstep.elim (fun h => h.retains hi' hs') fun h => h.retains hi' hs'
    exact ⟨hi'', hs'', hr.trans hr'⟩

/-- What every store keeps to which requests lead. -/
structure IsOrderly (s : Store) : Prop where
  idle : s.IsIdle
  intact : s.tables.Intact
  shaped : ∀ r ∈ s.tables.attempts, r.IsShaped

theorem isOrderly_create (onFile : Bool) : (create onFile).IsOrderly :=
  ⟨isIdle_create onFile, Tables.intact_empty, fun _ h => absurd h List.not_mem_nil⟩

theorem IsOrderly.request (q : Request) {w : World} (h : w.store.IsOrderly) :
    (q.run w).2.store.IsOrderly :=
  ⟨q.isIdle h.idle, q.intact h.idle h.intact, (q.advances h.idle h.intact).isShaped h.shaped⟩

theorem Leads.isOrderly (h : s.Leads t) (hs : s.IsOrderly) : t.IsOrderly :=
  h.invariant hs fun q _ => IsOrderly.request q

/-- An attempt is found in all later stores, and its retry count does not decrease. -/
theorem Leads.attempt? (h : s.Leads t) (hs : s.IsOrderly) {r : AttemptRow}
    (hr : r ∈ s.tables.attempts) :
    ∃ r', t.tables.attempt? r.attemptId = some r' ∧ r.retryCount ≤ r'.retryCount := by
  have hinv : t.IsOrderly ∧ ∃ r' ∈ t.tables.attempts,
      r'.attemptId = r.attemptId ∧ r.retryCount ≤ r'.retryCount := by
    refine h.invariant (I := fun t => t.IsOrderly ∧ ∃ r' ∈ t.tables.attempts,
      r'.attemptId = r.attemptId ∧ r.retryCount ≤ r'.retryCount)
      ⟨hs, r, hr, rfl, Int.le_refl _⟩ ?_
    rintro q w ⟨hw, x, hx, hxi, hle⟩
    have hq := IsOrderly.request q hw
    obtain ⟨y, hy, hmove⟩ := (q.advances hw.idle hw.intact).attempt? hq.intact.sound.toIndexed hx
    refine ⟨hq, y, List.mem_of_find?_eq_some hy, ?_⟩
    rcases hmove with rfl | ⟨m, hm⟩
    · exact ⟨hxi, hle⟩
    · exact ⟨hm.attemptId.trans hxi, Int.le_trans hle hm.retryCount_le⟩
  obtain ⟨ht, r', hr', hi, hle⟩ := hinv
  refine ⟨r', ?_, hle⟩
  rw [← hi]
  exact Tables.attempt?_eq_some ht.intact.sound.toIndexed hr'

end Store

/-- In every store to which requests lead, the rows are shaped. A request leaves each attempt as it is
or moves it along exactly one edge, and a turn of a worker and the work of a pool are made of
requests. Attempts never disappear, and their retry counts never decrease. What has ended or is
recorded stays as it is in all later stores, also where rows are changed from outside the engine. -/
theorem attempts_follow_life_cycle {onFile : Bool} {s : Store} (h : (Store.create onFile).Leads s) :
    (∀ r ∈ s.tables.attempts, r.IsShaped) ∧
    (∀ (q : Request) (w : World), w.store = s → ∀ r ∈ s.tables.attempts, ∃ r',
      (q.run w).2.store.tables.attempt? r.attemptId = some r' ∧
      (r' = r ∨ r' ≠ r ∧ ∃! m, r.Moves (s.tables.NewIn (q.run w).2.store.tables) m r')) ∧
    (∀ w : World, w.store = s → (∀ u : WorkerUnit, s.Leads (u.runOnce w).2.2.store) ∧
      ∀ settings policy stopAfter, s.Leads (Pool.run settings policy stopAfter w).2.store) ∧
    (∀ t, s.Leads t → ∀ r ∈ s.tables.attempts, ∃ r',
      t.tables.attempt? r.attemptId = some r' ∧ r.retryCount ≤ r'.retryCount) ∧
    ∀ t t', s.Drifts t → t.Drifts t' →
      (∀ r ∈ t.tables.attempts, r.isOpen = false → t'.tables.attempt? r.attemptId = some r) ∧
      ∀ x ∈ t.tables.responses, t'.tables.response? x.responseId = some x := by
  have hs : s.IsOrderly := h.isOrderly (Store.isOrderly_create onFile)
  refine ⟨hs.shaped, ?_, ?_, fun t ht r hr => ht.attempt? hs hr, ?_⟩
  · rintro q w rfl r hr
    obtain ⟨r', hfind, hmove⟩ := (q.advances hs.idle hs.intact).attempt?
      (Store.IsOrderly.request q hs).intact.sound.toIndexed hr
    refine ⟨r', hfind, hmove.imp_right ?_⟩
    rintro ⟨m, hm⟩
    exact ⟨hm.ne, m, hm, fun m' hm' => hm'.unique hm⟩
  · rintro w rfl
    exact ⟨fun u => u.leads_runOnce w, fun settings policy stopAfter =>
      Pool.isAsked_run settings policy stopAfter w⟩
  · intro t t' ht ht'
    obtain ⟨hti, htx, -⟩ := ht.retains hs.idle hs.intact.sound.toIndexed
    obtain ⟨-, htx', hr⟩ := ht'.retains hti htx
    exact ⟨fun r hm ho => Tables.attempt?_eq_some htx' (hr.attempts r hm ho),
      fun x hx => Tables.response?_eq_some htx' (hr.responses x hx)⟩

/-- A delivery that succeeds. -/
def delivered : List Operation :=
  Sample.begin ++ [.claim Sample.claimant 1,
    .finalize (Sample.claimed 1) (Sample.response 11 none) 2 none]

/-- It leaves a shaped row, which cannot be opened again from outside the engine. -/
theorem delivered_row_stays :
    ∃ r ∈ (Sample.world.runAll delivered).store.tables.attempts, r.isOpen = false ∧ r.IsShaped ∧
      (Engine.editAttempt r.attemptId (fun r => .ok { r with succeededAt := none })
        (Sample.world.runAll delivered)).2.store.tables.attempt? r.attemptId = some r := by
  have h : (Store.create true).Leads _ := Store.leads_runAll Sample.world delivered
  obtain ⟨hshaped, -, -, -, hstays⟩ := attempts_follow_life_cycle h
  have hr : ∃ r ∈ (Sample.world.runAll delivered).store.tables.attempts, r.isOpen = false :=
    ⟨_, List.mem_cons_self, rfl⟩
  obtain ⟨r, hm, ho⟩ := hr
  refine ⟨r, hm, ho, hshaped r hm, (hstays _ _ .refl ?_).1 r hm ho⟩
  exact .single (.inr ⟨_, rfl, .inl ⟨r.attemptId, _, rfl⟩⟩)

end WebhookDelivery
