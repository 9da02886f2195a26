import WebhookDelivery.Proofs.Run

/-!
# WebhookDelivery.Proofs.References

What leads from one row to another.

* `Tables.event?_eq_some` and the lemmas beside it: identifiers are unique, so a row that is there is
  the one that is found by its identifier.
* `Tables.Answered`: the responses to which attempts refer are there, so no reference is left open
  when a transaction ends.
* `Change.catalogued`, `Change.answered`: all changes keep this.
-/

namespace WebhookDelivery

@[simp] theorem Outcome.apply_responseId (o : Outcome) (id : Uuid) (r : AttemptRow) :
    (o.apply id r).responseId = some id := by
  cases o <;> rfl

namespace Tables

theorem find?_eq_some_of_nodup {α : Type} {f : α → Uuid} {rows : List α} {x : α}
    (h : (rows.map f).Nodup) (hx : x ∈ rows) : rows.find? (fun r => f r == f x) = some x := by
  cases hf : rows.find? (fun r => f r == f x) with
  | none => exact absurd (beq_self_eq_true _) (List.find?_eq_none.mp hf x hx)
  | some y =>
    have hy : y ∈ rows := List.mem_of_find?_eq_some hf
    have hi : f y = f x := by simpa using List.find?_some hf
    rw [List.inj_on_of_nodup_map h hy hx hi]

theorem attempt?_eq_some {t : Tables} (h : t.Indexed) {r : AttemptRow} (hr : r ∈ t.attempts) :
    t.attempt? r.attemptId = some r :=
  find?_eq_some_of_nodup h.attemptIds hr

theorem response?_eq_some {t : Tables} (h : t.Indexed) {x : Response} (hx : x ∈ t.responses) :
    t.response? x.responseId = some x :=
  find?_eq_some_of_nodup h.responseIds hx

/-! ## Events and subscriptions -/

/-- Events and subscriptions have identifiers of their own. -/
structure Catalogued (t : Tables) : Prop where
  eventIds : (t.events.map (·.eventId)).Nodup
  subscriptionIds : (t.subscriptions.map (·.subscriptionId)).Nodup

theorem catalogued_empty : empty.Catalogued := ⟨List.nodup_nil, List.nodup_nil⟩

namespace Catalogued

variable {t t' : Tables}

theorem congr (h : t.Catalogued) (he : t'.events = t.events)
    (hs : t'.subscriptions = t.subscriptions) : t'.Catalogued := by
  refine ⟨?_, ?_⟩
  · rw [he]
    exact h.eventIds
  · rw [hs]
    exact h.subscriptionIds

theorem event?_eq_some (h : t.Catalogued) {e : Event} (he : e ∈ t.events) :
    t.event? e.eventId = some e :=
  find?_eq_some_of_nodup h.eventIds he

theorem subscription?_eq_some (h : t.Catalogued) {s : Subscription} (hs : s ∈ t.subscriptions) :
    t.subscription? s.subscriptionId = some s :=
  find?_eq_some_of_nodup h.subscriptionIds hs

end Catalogued

theorem offer_frame (t : Tables) (r : AttemptRow) : (t.offer r).events = t.events ∧
    (t.offer r).subscriptions = t.subscriptions ∧ (t.offer r).responses = t.responses := by
  unfold offer
  split <;> exact ⟨rfl, rfl, rfl⟩

theorem claim_frame (t : Tables) (c : Claimant) (now : Int) :
    (t.claim c now).2.events = t.events ∧ (t.claim c now).2.subscriptions = t.subscriptions ∧
      (t.claim c now).2.responses = t.responses := by
  unfold Tables.claim
  split <;> exact ⟨rfl, rfl, rfl⟩

variable {ends : Ending → Prop} {t t' : Tables}

theorem Change.catalogued (h : Change ends t t') (hs : t.Indexed) (ht : t.Catalogued) :
    t'.Catalogued := by
  cases h with
  | edit h =>
    cases h with
    | register h => exact ⟨h.eventIds ht.eventIds, h.subscriptionIds ht.subscriptionIds⟩
    | claim c now =>
      obtain ⟨he, hsub, -⟩ := t.claim_frame c now
      exact ht.congr he hsub
    | finish e _ _ h =>
      obtain rfl := finish?_eq_ok hs.referencesUnchecked h
      exact ht.congr rfl rfl
  | offer r _ _ =>
    obtain ⟨he, hsub, -⟩ := t.offer_frame r
    exact ht.congr he hsub

/-! ## Responses -/

/-- Nothing that was recorded is changed. -/
theorem Change.responses (h : Change ends t t') (hs : t.Indexed) :
    ∃ more, t'.responses = t.responses ++ more := by
  cases h with
  | edit h =>
    cases h with
    | register h => exact ⟨[], by rw [h.responses, List.append_nil]⟩
    | claim c now => exact ⟨[], by rw [(t.claim_frame c now).2.2, List.append_nil]⟩
    | finish e _ _ h =>
      obtain rfl := finish?_eq_ok hs.referencesUnchecked h
      exact ⟨_, rfl⟩
  | offer r _ _ => exact ⟨[], by rw [(t.offer_frame r).2.2, List.append_nil]⟩

/-- The responses to which attempts refer are there. -/
def Answered (t : Tables) : Prop :=
  ∀ r ∈ t.attempts, ∀ id, r.responseId = some id → ∃ x ∈ t.responses, x.responseId = id

theorem answered_empty : empty.Answered := fun _ h => absurd h List.not_mem_nil

theorem Answered.offer (h : t.Answered) {r : AttemptRow} (fresh : r.IsFresh) :
    (t.offer r).Answered := by
  unfold Tables.offer
  split
  · exact h
  · intro x hx id hid
    rcases List.mem_append.mp hx with hx | hx
    · exact h x hx id hid
    · rw [List.mem_singleton.mp hx, fresh.responseId] at hid
      cases hid

theorem Answered.claim (h : t.Answered) (c : Claimant) (now : Int) : (t.claim c now).2.Answered := by
  unfold Tables.claim
  split
  · exact h
  · intro x hx id hid
    obtain ⟨r, hr, rfl⟩ := mem_updateRows.mp hx
    refine h r hr id ?_
    split at hid <;> exact hid

theorem Answered.finish (h : t.Answered) (hs : t.Indexed) {e : Ending}
    (hf : t.finish? e = .ok t') : t'.Answered := by
  obtain rfl := finish?_eq_ok hs.referencesUnchecked hf
  intro x hx id hid
  obtain ⟨r, hr, rfl⟩ := mem_updateRows.mp hx
  by_cases hh : e.token.holds r
  · rw [if_pos hh, Outcome.apply_responseId, Option.some.injEq] at hid
    exact ⟨e.response.toRow, List.mem_append_right _ List.mem_cons_self, hid⟩
  · rw [if_neg hh] at hid
    obtain ⟨y, hy, hyi⟩ := h r hr id hid
    exact ⟨y, List.mem_append_left _ hy, hyi⟩

theorem Change.answered (h : Change ends t t') (hs : t.Indexed) (ht : t.Answered) :
    t'.Answered := by
  cases h with
  | edit h =>
    cases h with
    | register h =>
      unfold Answered
      rw [h.attempts, h.responses]
      exact ht
    | claim c now => exact ht.claim c now
    | finish e _ _ h => exact ht.finish hs h
  | offer r fresh _ => exact ht.offer fresh

theorem Answered.dangling (h : t.Answered) : t.dangling = [] := by
  unfold Tables.dangling
  rw [List.filterMap_eq_nil_iff]
  intro r hr
  cases hid : r.responseId with
  | none => rfl
  | some id =>
    obtain ⟨x, hx, rfl⟩ := h r hr id hid
    have hf : (t.response? x.responseId).isSome := by
      rw [response?, List.find?_isSome]
      exact ⟨x, hx, beq_self_eq_true _⟩
    simp [hf]

end Tables

/-- What every reachable store keeps of its rows, whoever records outcomes. -/
structure Tables.Intact (t : Tables) : Prop where
  sound : t.Sound
  catalogued : t.Catalogued
  answered : t.Answered

theorem Tables.intact_empty : Tables.empty.Intact :=
  ⟨sound_empty, catalogued_empty, answered_empty⟩

theorem Tables.Change.intact {ends : Ending → Prop} {t t' : Tables} (h : Change ends t t')
    (ht : t.Intact) : t'.Intact :=
  ⟨h.sound ht.sound, h.catalogued ht.sound.toIndexed ht.catalogued,
    h.answered ht.sound.toIndexed ht.answered⟩

theorem Call.responses_after {x : Call} (h : x.before.IsIdle) (hs : x.before.tables.Indexed) :
    ∃ more, x.after.tables.responses = x.before.tables.responses ++ more := by
  have hinv : x.after.tables.Indexed ∧
      ∃ more, x.after.tables.responses = x.before.tables.responses ++ more := by
    refine (Call.changes h).invariant (I := fun t => t.Indexed ∧
      ∃ more, t.responses = x.before.tables.responses ++ more) ⟨hs, [], (List.append_nil _).symm⟩ ?_
    rintro t t' hc ⟨ht, more, hm⟩
    obtain ⟨more', hm'⟩ := hc.responses ht
    exact ⟨hc.indexed ht, more ++ more', by rw [hm', hm, List.append_assoc]⟩
  exact hinv.2

theorem Call.intact_after {x : Call} (h : x.before.IsIdle) (ht : x.before.tables.Intact) :
    x.after.tables.Intact :=
  (Call.changes h).invariant ht fun _ _ hc => hc.intact

theorem Run.intact {s t : Store} {calls : List Call} (h : Run s calls t) (hs : s.IsIdle)
    (ht : s.tables.Intact) : t.tables.Intact :=
  h.invariant hs ht fun _ _ _ _ hc => hc.intact

end WebhookDelivery
