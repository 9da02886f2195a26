import WebhookDelivery.Proofs.FanOut

/-!
# WebhookDelivery.Proofs.OpenPairs

How many open attempts an event has for a subscription. Dispatch looks for an attempt of an earlier
dispatch and replay for any open attempt, so a pair has at most one as long as no event is replayed
between its storage and its dispatch.

* `Tables.IsExclusive`: no pair has two open attempts.
* `Call.Doubles`: the dispatch of a stored event finds an open attempt of one of its pairs.
* `pairs_are_exclusive_unless_doubled`: a run keeps all pairs exclusive if none of its calls does so,
  and each call that does so opens a second attempt of the pair.
* `pair_opened_twice`: a run in which that happens.
-/

namespace WebhookDelivery

namespace Tables

/-- The number of open attempts to deliver an event to a subscription. -/
def countOpen (t : Tables) (event subscription : Uuid) : Nat :=
  t.attempts.countP fun r => r.eventId == event && r.subscriptionId == subscription && r.isOpen

/-- No pair of an event and a subscription has two open attempts. -/
def IsExclusive (t : Tables) : Prop := ∀ e s, t.countOpen e s ≤ 1

theorem countOpen_eq_zero {t : Tables} {event subscription : Uuid} :
    t.countOpen event subscription = 0 ↔ ∀ r ∈ t.attempts, r.eventId = event →
      r.subscriptionId = subscription → r.isOpen = false := by
  simp [countOpen, List.countP_eq_zero]

theorem openAttempt?_eq_none_iff {t : Tables} {event subscription : Uuid} :
    t.openAttempt? event subscription = none ↔ t.countOpen event subscription = 0 := by
  rw [openAttempt?, least?_eq_none_iff, List.filter_eq_nil_iff, countOpen, List.countP_eq_zero]

theorem isExclusive_empty : empty.IsExclusive := fun _ _ => Nat.zero_le 1

/-- Attempts that evolve are not opened again. -/
theorem Edit.exclusive {ends : Ending → Prop} {t t' : Tables} (h : Edit ends t t') (hs : t.Sound)
    (ht : t.IsExclusive) : t'.IsExclusive := by
  intro e s
  obtain ⟨f, ha, hf⟩ := h.attempts hs.toIndexed
  refine Nat.le_trans ?_ (ht e s)
  unfold countOpen
  rw [ha, List.countP_map]
  refine List.countP_mono_left fun r hr hopen => ?_
  simp only [Function.comp, Bool.and_eq_true, beq_iff_eq] at hopen ⊢
  obtain ⟨-, -, he, hsub, -⟩ := (hf r hr).frame
  exact ⟨⟨he.symm.trans hopen.1.1, hsub.symm.trans hopen.1.2⟩, (hf r hr).isOpen hopen.2⟩

/-- An attempt for a pair that has no open one may be added. -/
theorem IsExclusive.offer {t : Tables} (h : t.IsExclusive) {r : AttemptRow}
    (hr : t.isTaken r ∨ t.countOpen r.eventId r.subscriptionId = 0) : (t.offer r).IsExclusive := by
  unfold Tables.offer
  split
  · exact h
  · rename_i ht
    have hz := hr.resolve_left ht
    intro e s
    unfold countOpen at hz ⊢
    rw [List.countP_append]
    by_cases hp : r.eventId = e ∧ r.subscriptionId = s
    · obtain ⟨rfl, rfl⟩ := hp
      rw [hz, Nat.zero_add]
      exact List.countP_le_length
    · have hn : [r].countP (fun r => r.eventId == e && r.subscriptionId == s && r.isOpen) = 0 := by
        rw [List.countP_eq_zero]
        intro x hx
        rw [List.mem_singleton.mp hx]
        simp only [Bool.and_eq_true, beq_iff_eq]
        exact fun ⟨hes, _⟩ => hp hes
      rw [hn, Nat.add_zero]
      exact h e s

end Tables

namespace Data

/-! ## Dispatch and replay -/

/-- A dispatch keeps pairs exclusive if every open attempt of its pairs is one of a dispatch: such
an attempt stands in the way of another one. -/
theorem exclusive_dispatch {e : Event} {now : Int} {targets : List Subscription} {d : Data}
    (h : d.tables.IsExclusive)
    (hi : ∀ s ∈ targets, ∀ r ∈ d.tables.attempts, r.eventId = e.eventId →
      r.subscriptionId = s.subscriptionId → r.isOpen → r.IsInitial) :
    (targets.foldl (dispatchTo e now) d).tables.IsExclusive := by
  -- What a receiver is offered is an attempt of a dispatch, so the condition lasts for the rest.
  induction targets generalizing d with
  | nil => exact h
  | cons s rest ih =>
    refine ih (d := dispatchTo e now d s) ?_ ?_
    · refine h.offer ?_
      by_cases hz : d.tables.countOpen e.eventId s.subscriptionId = 0
      · exact .inr hz
      · left
        rw [Tables.countOpen_eq_zero] at hz
        push Not at hz
        obtain ⟨r, hr, hre, hrs, hro⟩ := hz
        have hrk := hi s List.mem_cons_self r hr hre hrs (by simpa using hro)
        refine List.any_eq_true.mpr ⟨r, hr, Bool.or_eq_true_iff.mpr (.inr (beq_iff_eq.mpr ?_))⟩
        rw [hrk, hre, hrs]
        rfl
    · intro x hx r hr hre hrs hro
      rcases d.tables.offer_attempts (initialRow (d.initialAttempt e now s)) with ha | ha
      · exact hi x (List.mem_cons_of_mem _ hx) r (ha ▸ hr) hre hrs hro
      · have hr' : r ∈ d.tables.attempts ++ [initialRow (d.initialAttempt e now s)] := ha ▸ hr
        rcases List.mem_append.mp hr' with hr' | hr'
        · exact hi x (List.mem_cons_of_mem _ hx) r hr' hre hrs hro
        · rw [List.mem_singleton.mp hr']
          rfl

theorem exclusive_replayAll {d : Data} (h : d.tables.IsExclusive) (eventId application : Uuid)
    (now : Int) (targets : List Subscription) :
    (d.replayAll eventId application now targets).tables.IsExclusive := by
  induction targets generalizing d with
  | nil => exact h
  | cons s rest ih =>
    refine ih (d := d.replayTo eventId application now s) ?_
    unfold replayTo
    split
    · exact h
    · rename_i hn
      rw [Option.not_isSome_iff_eq_none] at hn
      exact h.offer (.inr (Tables.openAttempt?_eq_none_iff.mp hn))

end Data

/-! ## Calls -/

namespace Call

/-- The call dispatches a stored event although an open attempt of one of its pairs is there. -/
def Doubles (x : Call) : Prop :=
  ∃ e now a stored, x.operation = .ingest e now ∧ x.answer = .ok a ∧
    x.before.tables.event? e.eventId = some stored ∧ stored.dispatchedAt = none ∧
    ∃ s ∈ x.world.data.receivers stored,
      x.before.tables.countOpen stored.eventId s.subscriptionId ≠ 0

/-- The identifiers that a dispatch of a stored event draws are distinct and belong to no attempt. -/
def DrawsNew (x : Call) : Prop :=
  ∀ e now stored, x.operation = .ingest e now → x.before.tables.event? e.eventId = some stored →
    (x.world.ids.upcoming .attempt (x.world.data.receivers stored).length).Nodup ∧
    ∀ id ∈ x.world.ids.upcoming .attempt (x.world.data.receivers stored).length,
      ∀ r ∈ x.before.tables.attempts, r.attemptId ≠ id

theorem exclusive_after {x : Call} (hi : x.before.IsIdle) (hs : x.before.tables.Sound)
    (h : x.before.tables.IsExclusive) (hd : ¬x.Doubles) : x.after.tables.IsExclusive := by
  rcases effect hi with he | ⟨e, now, a, ho, ha, ht⟩ | ⟨eventId, app, -, now, -, targets, -, -, -, ht⟩
  · exact he.exclusive hs h
  · rw [ht]
    unfold Data.ingest
    cases he : x.world.data.tables.event? e.eventId with
    | none =>
      -- An event that has just been stored has no attempts.
      refine Data.exclusive_dispatch (d := x.world.data.stored e) h ?_
      intro s _ r hr hre _ _
      obtain ⟨y, hy, hyi, -⟩ := (hs.places r hr).event
      exact absurd (beq_iff_eq.mpr (hyi.trans hre)) (List.find?_eq_none.mp he y hy)
    | some stored =>
      dsimp only
      split
      · exact h
      · rename_i hnone
        rw [Option.not_isSome_iff_eq_none] at hnone
        refine Data.exclusive_dispatch h ?_
        intro s hsr r hr hre hrs hro
        have hz : x.before.tables.countOpen stored.eventId s.subscriptionId = 0 := by
          by_contra hz
          exact hd ⟨e, now, a, stored, ho, ha, he, hnone, s, hsr, hz⟩
        rw [Tables.countOpen_eq_zero.mp hz r hr hre hrs] at hro
        cases hro
  · rw [ht]
    exact Data.exclusive_replayAll h eventId app now targets

/-- The open attempt that is there comes from a replay of the event before it was dispatched. -/
theorem Doubles.of_replay {x : Call} (h : x.Doubles) (hr : x.before.tables.Routed) :
    ∃ r ∈ x.before.tables.attempts, r.isOpen ∧ r.IsReplay ∧
      ∃ e ∈ x.before.tables.events, e.eventId = r.eventId ∧ e.dispatchedAt = none := by
  obtain ⟨e, now, a, stored, -, -, he, hnone, s, -, hopen⟩ := h
  rw [ne_eq, Tables.countOpen_eq_zero] at hopen
  push Not at hopen
  obtain ⟨r, hm, hre, -, ho⟩ := hopen
  have hstored := (Data.mem_of_event? he).1
  refine ⟨r, hm, by simpa using ho, ?_, stored, hstored, hre.symm, hnone⟩
  rcases hr.keyed r hm with hi | hi
  · have hsome := hr.dispatched r hm hi stored hstored hre.symm
    rw [hnone] at hsome
    cases hsome
  · exact hi

/-- A call that doubles a pair leaves it with two open attempts. -/
theorem not_exclusive_after {x : Call} (hr : x.before.tables.Routed) (hd : x.Doubles)
    (hn : x.DrawsNew) : ¬x.after.tables.IsExclusive := by
  obtain ⟨e, now, a, stored, ho, ha, he, hnone, s, hs, hopen⟩ := hd
  obtain ⟨hdistinct, hfresh⟩ := hn e now stored ho he
  obtain ⟨hstored, hid⟩ := Data.mem_of_event? he
  have hrows : x.after.tables.attempts =
      ((x.world.data.receivers stored).foldl (Data.dispatchTo stored now) x.world.data).tables.attempts := by
    have he' : x.world.data.tables.event? e.eventId = some stored := he
    rw [tables_of_ingest ho ha]
    unfold Data.ingest
    rw [he']
    dsimp only
    rw [hnone]
    rfl
  obtain ⟨-, new, hnew, hp⟩ :=
    Data.dispatched_attempts stored now (x.world.data.receivers stored) x.world.data
  -- An older attempt of a dispatch would belong to an event that was marked as dispatched.
  have hunsent : ∀ r ∈ x.world.data.tables.attempts, r.IsInitial → r.eventId ≠ stored.eventId := by
    intro r hold hi hev
    have hsome := hr.dispatched r hold hi stored hstored hev.symm
    rw [hnone] at hsome
    cases hsome
  obtain ⟨r, hrnew, hrk⟩ :=
    Data.exists_dispatched (d := x.world.data) hr.keyed hunsent hdistinct hfresh hnew s hs
  obtain ⟨_, -, hd⟩ := hp r hrnew
  obtain ⟨hre, hrs⟩ := DispatchKey.initial_injective (hd.isInitial.symm.trans hrk)
  have hcount : 0 < new.countP fun r =>
      r.eventId == stored.eventId && r.subscriptionId == s.subscriptionId && r.isOpen :=
    List.countP_pos_iff.mpr ⟨r, hrnew, by simp [hre, hrs, hd.isFresh.isOpen]⟩
  intro hexcl
  have hle := hexcl stored.eventId s.subscriptionId
  unfold Tables.countOpen at hle hopen
  rw [hrows, hnew, List.countP_append] at hle
  change List.countP _ x.world.data.tables.attempts ≠ 0 at hopen
  omega

end Call

/-- As long as no call of a run doubles a pair, no pair ever has two open attempts. A call that
doubles a pair and draws new identifiers leaves it with two, one of which is from a replay of the
event before it was dispatched. -/
theorem pairs_are_exclusive_unless_doubled {onFile : Bool} {calls : List Call} {s : Store}
    (h : Run (.create onFile) calls s) :
    ((∀ x ∈ calls, ¬x.Doubles) → ∀ x ∈ calls, x.after.tables.IsExclusive) ∧
      ∀ x ∈ calls, x.Doubles →
        (x.DrawsNew → ¬x.after.tables.IsExclusive) ∧
        ∃ r ∈ x.before.tables.attempts, r.isOpen ∧ r.IsReplay ∧
          ∃ e ∈ x.before.tables.events, e.eventId = r.eventId ∧ e.dispatchedAt = none := by
  have hidle := Store.isIdle_create onFile
  refine ⟨fun hno => ?_, fun x hx hd => ?_⟩
  · have hkeep : ∀ x ∈ calls, (x.before.IsIdle ∧ x.before.tables.Sound ∧ x.before.tables.IsExclusive) →
        x.after.IsIdle ∧ x.after.tables.Sound ∧ x.after.tables.IsExclusive :=
      fun x hx ⟨hi, hs, he⟩ =>
        ⟨Call.isIdle_after hi, Call.sound_after hi hs, Call.exclusive_after hi hs he (hno x hx)⟩
    have hbefore := (h.preserves (I := fun s => s.IsIdle ∧ s.tables.Sound ∧ s.tables.IsExclusive)
      ⟨hidle, Tables.sound_empty, Tables.isExclusive_empty⟩ hkeep).2
    exact fun x hx => (hkeep x hx (hbefore x hx)).2.2
  · have hbefore := (h.preserves (I := fun s => s.IsIdle ∧ s.tables.Sound ∧ s.tables.Routed)
      ⟨hidle, Tables.sound_empty, Tables.routed_empty⟩ fun x _ ⟨hi, hs, hr⟩ =>
        ⟨Call.isIdle_after hi, Call.sound_after hi hs, Call.routed_after hi hs hr⟩).2
    have hr := (hbefore x hx).2.2
    exact ⟨Call.not_exclusive_after hr hd, hd.of_replay hr⟩

/-- An event is replayed before it is dispatched. -/
def early : List Operation := Sample.begin ++ [.ingest Sample.event 0]

theorem early_dispatch_doubles : ¬(Call.inTurn Sample.world early)[3].after.tables.IsExclusive := by
  have h : Run (.create true) _ _ := run_inTurn Sample.world early
  have hstored : (Call.inTurn Sample.world early)[3].before.tables.event? Sample.event.eventId =
      some Sample.event := rfl
  have hreceivers : (Call.inTurn Sample.world early)[3].world.data.receivers Sample.event =
      [Sample.subscription] := by decide +kernel
  have hd : (Call.inTurn Sample.world early)[3].Doubles := by
    have hok : (Call.inTurn Sample.world early)[3].answer.isOk := by decide +kernel
    cases ha : (Call.inTurn Sample.world early)[3].answer with
    | error e =>
      rw [ha] at hok
      cases hok
    | ok a =>
      refine ⟨Sample.event, 0, a, Sample.event, rfl, ha, hstored, rfl, Sample.subscription, ?_, ?_⟩
      · rw [hreceivers]
        exact List.mem_singleton_self _
      · decide +kernel
  have hn : (Call.inTurn Sample.world early)[3].DrawsNew := by
    intro e now stored ho he
    cases ho
    obtain rfl : Sample.event = stored := Option.some.inj (hstored.symm.trans he)
    rw [hreceivers]
    exact ⟨List.nodup_singleton _, by decide +kernel⟩
  exact (((pairs_are_exclusive_unless_doubled h).2 _ (List.getElem_mem _)) hd).1 hn

theorem pair_opened_twice :
    ∃ s, Run (.create true) (Call.inTurn Sample.world early) s ∧
      s.tables.countOpen Sample.event.eventId Sample.subscription.subscriptionId = 2 :=
  ⟨_, run_inTurn Sample.world early, by decide +kernel⟩

end WebhookDelivery
