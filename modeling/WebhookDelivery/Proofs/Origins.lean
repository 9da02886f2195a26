import WebhookDelivery.Proofs.DeliveredContent

/-!
# WebhookDelivery.Proofs.Origins

A subscription keeps the application and the time of creation with which it was first saved.

* `Tables.origins`: the identifiers, applications and times of the subscriptions, in the order in
  which they were first saved.
* `Operation.meets_origins`: an operation adds to them at most.
* `Store.Strays.subscription?`: so a subscription that is there remains, wherever requests, changes
  of rows and insertions of attempts lead, and keeps its origin.
-/

namespace WebhookDelivery

/-- What of a subscription never changes. -/
def Subscription.origin (s : Subscription) : Uuid × Uuid × ClockTime :=
  (s.subscriptionId, s.applicationId, s.createdAt)

namespace Tables

def origins (t : Tables) : List (Uuid × Uuid × ClockTime) := t.subscriptions.map Subscription.origin

theorem origins_congr {t t' : Tables} (h : t'.subscriptions = t.subscriptions) :
    t.origins <+: t'.origins :=
  ⟨[], by rw [List.append_nil, origins, origins, h]⟩

theorem origins_updateRows (t : Tables) {select : Subscription → Bool}
    {change : Subscription → Subscription}
    (h : ∀ s, select s → (change s).origin = s.origin) :
    t.origins <+: origins { t with subscriptions := updateRows select change t.subscriptions } := by
  have hkept := map_updateRows h t.subscriptions
  change t.origins <+: (updateRows select change t.subscriptions).map Subscription.origin
  rw [hkept]
  exact List.prefix_refl _

theorem origins_saveSubscription (t : Tables) (s : Subscription) :
    t.origins <+: (t.saveSubscription s).origins := by
  unfold saveSubscription
  dsimp only
  split
  · refine t.origins_updateRows fun old hold => ?_
    rw [Subscription.origin, Subscription.origin, eq_of_beq hold]
  · rw [origins, origins, List.map_append]
    exact List.prefix_append _ _

theorem origins_setEnabled (t : Tables) (id : Uuid) (enabled : Bool) :
    t.origins <+: (t.setEnabled id enabled).2.origins :=
  t.origins_updateRows fun _ _ => by rfl

theorem subscriptions_insertResponse {t t' : Tables} {r : Response}
    (h : t.insertResponse r = .ok t') : t'.subscriptions = t.subscriptions := by
  unfold insertResponse at h
  repeat' split at h
  all_goals cases h
  rfl

theorem find?_origins (t : Tables) (id : Uuid) :
    t.origins.find? (·.1 == id) = (t.subscription? id).map Subscription.origin := by
  rw [origins, List.find?_map]
  rfl

/-- A subscription remains where its origin does. -/
theorem subscription?_of_origins {t t' : Tables} (h : t.origins <+: t'.origins) {id : Uuid}
    {s : Subscription} (hs : t.subscription? id = some s) :
    ∃ s', t'.subscription? id = some s' ∧ s'.origin = s.origin := by
  obtain ⟨more, hmore⟩ := h
  have hfind := t'.find?_origins id
  rw [← hmore, List.find?_append, t.find?_origins, hs, Option.map_some, Option.some_or] at hfind
  obtain ⟨s', hs', horigin⟩ := Option.map_eq_some_iff.mp hfind.symm
  exact ⟨s', hs', horigin⟩

end Tables

namespace Data

theorem subscriptions_foldl {f : Data → Subscription → Data}
    (h : ∀ d s, (f d s).tables.subscriptions = d.tables.subscriptions)
    (targets : List Subscription) (d : Data) :
    (targets.foldl f d).tables.subscriptions = d.tables.subscriptions := by
  induction targets generalizing d with
  | nil => rfl
  | cons s rest ih => rw [List.foldl_cons, ih, h]

theorem subscriptions_fanOut (e : Event) (now : Int) (d : Data) :
    (d.fanOut e now).tables.subscriptions = d.tables.subscriptions :=
  subscriptions_foldl (fun d _ => (d.tables.offer_frame _).2.1) (d.receivers e) d

theorem subscriptions_ingest (e : Event) (now : Int) (d : Data) :
    (d.ingest e now).tables.subscriptions = d.tables.subscriptions := by
  rcases d.ingest_cases e now with hd | hd
  · rw [hd]
  · rw [hd, subscriptions_fanOut, (d.insertEvent_frame e).2]

theorem subscriptions_replayAll (eventId application : Uuid) (now : Int)
    (targets : List Subscription) (d : Data) :
    (d.replayAll eventId application now targets).tables.subscriptions =
      d.tables.subscriptions := by
  refine subscriptions_foldl (fun d s => ?_) targets d
  unfold replayTo
  split
  · rfl
  · exact (d.tables.offer_frame _).2.1

end Data

/-- An operation adds to the origins at most. -/
theorem Operation.meets_origins (o : Operation) :
    o.run.Meets fun d _ d' => d.tables.origins <+: d'.tables.origins := by
  cases o with
  | storeEvent e =>
    refine ((Engine.meets_insertEvent e).map _).mono ?_
    rintro d _ d' ⟨_, ⟨ht, -⟩, rfl⟩
    have htables : d'.tables = (d.insertEvent e).tables := congrArg Prod.snd ht
    exact Tables.origins_congr (htables ▸ (d.insertEvent_frame e).2)
  | ingest e now =>
    refine ((Engine.meets_ingest e now).map _).mono ?_
    rintro d _ d' ⟨_, ⟨rfl, -⟩, rfl⟩
    exact Tables.origins_congr (d.subscriptions_ingest e now)
  | replay eventId application subscription now =>
    refine ((Engine.meets_replay eventId application subscription now).map _).mono ?_
    rintro d _ d' ⟨_, ⟨_, targets, -, -, rfl⟩, rfl⟩
    exact Tables.origins_congr (d.subscriptions_replayAll eventId application now targets)
  | claim c now =>
    refine ((Engine.meets_claimNext c now).map _).mono ?_
    rintro d _ d' ⟨_, ⟨rfl, -⟩, rfl⟩
    exact Tables.origins_congr (d.tables.claim_frame c now).2.1
  | findStale before limit =>
    refine ((Engine.meets_findStale before limit).map _).mono ?_
    rintro d _ d' ⟨_, ⟨-, rfl⟩, rfl⟩
    exact List.prefix_refl _
  | finalize claimed r now retryAt =>
    refine ((Engine.meets_finalize claimed r now retryAt).map _).mono ?_
    rintro d _ d' ⟨held, ⟨pickedAt, -, -, h⟩, rfl⟩
    cases held with
    | false =>
      rw [if_neg Bool.false_ne_true] at h
      exact h ▸ List.prefix_refl _
    | true =>
      have hs := Tables.subscriptions_insertResponse h.1
      exact Tables.origins_congr hs
  | saveSubscription s =>
    refine ((Engine.meets_saveSubscription s).map _).mono ?_
    rintro d _ d' ⟨_, rfl, rfl⟩
    exact d.tables.origins_saveSubscription s
  | setEnabled id enabled =>
    refine ((Engine.meets_setSubscriptionEnabled id enabled).map _).mono ?_
    rintro d _ d' ⟨_, ⟨ht, -⟩, rfl⟩
    have htables : d'.tables = (d.tables.setEnabled id enabled).2 := congrArg Prod.snd ht
    exact htables ▸ d.tables.origins_setEnabled id enabled

theorem Call.origins {x : Call} (h : x.before.IsIdle) :
    x.before.tables.origins <+: x.after.tables.origins := by
  cases ha : x.answer with
  | error e => exact tables_of_error h ha ▸ List.prefix_refl _
  | ok a => exact (x.operation.meets_origins x.world).2 a ha

theorem Run.origins {s t : Store} {calls : List Call} (h : Run s calls t) (hs : s.IsIdle) :
    s.tables.origins <+: t.tables.origins := by
  induction h with
  | nil => exact List.prefix_refl _
  | cons _ ih => exact (Call.origins hs).trans (ih (Call.isIdle_after hs))

theorem Request.origins (q : Request) {w : World} (h : w.store.IsIdle) :
    w.store.tables.origins <+: (q.run w).2.store.tables.origins := by
  rcases q.run_calls w with ⟨id, time, rfl⟩ | ⟨calls, hrun, -⟩
  · rw [Request.run, Engine.store_map]
    refine Engine.atomically_invariant h
      (I := fun t => w.store.tables.origins <+: t.origins) (List.prefix_refl _) ?_
    refine (Engine.meets_markDispatched id time).mono ?_
    rintro d _ d' ⟨ht, -⟩ hd
    have htables : d'.tables = (d.tables.markDispatched id time).2 := congrArg Prod.snd ht
    exact htables ▸ hd
  · exact hrun.origins h

namespace Store

variable {s t : Store}

theorem Strays.origins (h : s.Strays t) (hs : s.IsCoherent) :
    s.tables.origins <+: t.tables.origins := by
  induction h with
  | refl => exact List.prefix_refl _
  | tail hbefore hstep ih =>
    have hi := (Strays.isCoherent hbefore hs).idle
    refine ih.trans ?_
    rcases hstep with ⟨q, w, rfl, rfl⟩ | htamper | hinsert
    · exact q.origins hi
    · obtain ⟨-, heq | ⟨id, edit, n, he⟩⟩ := htamper.tables hi
      · exact heq ▸ List.prefix_refl _
      · exact Tables.origins_congr (Tables.editAttempt_frame he).2
    · obtain ⟨-, heq | ⟨a, key, isNew, hn⟩⟩ := hinsert.tables hi
      · exact heq ▸ List.prefix_refl _
      · rw [(Tables.insertAttempt_eq_ok hn).1]
        exact Tables.origins_congr (Tables.offer_frame _ _).2.1

/-- A subscription that is there remains there, and keeps its origin. -/
theorem Strays.subscription? (h : s.Strays t) (hs : s.IsCoherent) {id : Uuid} {x : Subscription}
    (hx : s.tables.subscription? id = some x) :
    ∃ y, t.tables.subscription? id = some y ∧ y.origin = x.origin :=
  Tables.subscription?_of_origins (h.origins hs) hx

end Store
end WebhookDelivery
