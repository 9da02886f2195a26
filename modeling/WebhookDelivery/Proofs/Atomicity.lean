import WebhookDelivery.Proofs.Programs

/-!
# WebhookDelivery.Proofs.Atomicity

What is left of an operation that fails, and of a transaction with others inside it.

* `Action.reverts_run`: an operation outside of any transaction that fails leaves the tables alone.
* `Program.run_block`, `Program.tables_run_begun`: a block is settled when its body ends, and finds
  the effects of the statements that succeeded, in nested blocks and before caught errors too.
* `transactions_keep_all_or_nothing`: the outermost block keeps all of these or nothing.
-/

namespace WebhookDelivery

theorem Action.reverts_run (x : Action) : x.run.Reverts := by
  cases x with
  | operation o => exact o.reverts_run
  | insertAttempt a key => exact (Engine.Reverts.atomically _).map _
  | markDispatched id time => exact (Engine.Reverts.atomically _).map _

namespace Program

variable {α : Type}

/-- The tables that the end of a block finds: those before it after all statements that succeeded
in it. -/
def reached (p : Program α) (w : World) : Tables :=
  Statement.effects (p.executed w.begun) w.store.tables

theorem run_block (p : Program α) {w : World} (ho : w.store.isOpen = true)
    (ht : w.store.inTransaction = false) :
    p.block.run w = Engine.settle w.store.tables (p.run w.begun).1 (p.run w.begun).2 := by
  rw [run, Engine.atomically, if_neg (by simp [ho]), if_neg (by simp [ht])]
  rfl

theorem tables_run_begun (p : Program α) {w : World} (ho : w.store.isOpen = true) :
    (p.run w.begun).2.store.tables = p.reached w := by
  rw [p.tables_run (w := w.begun) ho rfl]
  rfl

/-- A block gives a value when its body does and no reference is broken at its end, and then its
tables are those that its body reached. -/
theorem run_block_eq_ok (p : Program α) {w : World} (ht : w.store.inTransaction = false) (a : α) :
    ((p.block.run w).1 = .ok a ↔ w.store.isOpen = true ∧ (p.run w.begun).1 = .ok a ∧
      Tables.keepsReferences w.store.tables (p.reached w) = true) ∧
    ((p.block.run w).1 = .ok a → (p.block.run w).2.store.tables = p.reached w) := by
  cases ho : w.store.isOpen with
  | false =>
    have hr : p.block.run w = (.error .storeClosed, w) := by
      rw [run, Engine.atomically, if_pos (by simp [ho])]
    simp [hr]
  | true =>
    rw [run_block p ho ht, ← tables_run_begun p ho]
    cases hr : (p.run w.begun).1 with
    | error e => simp [Engine.settle]
    | ok b =>
      by_cases hk : Tables.keepsReferences w.store.tables (p.run w.begun).2.store.tables = true
      · simp only [Engine.settle, hk, if_true]
        exact ⟨⟨fun h => ⟨trivial, h, trivial⟩, fun h => h.2.1⟩, fun _ => trivial⟩
      · simp only [Engine.settle, hk]
        simp

end Program

/-- Outside of any transaction:

* an operation that fails, at whichever of its statements, leaves all tables as they were;
* a block whose body is any program of operations, other blocks and caught errors leaves them as
  they were if it fails, be it only at its end, and if it does not fail it leaves the effects of
  exactly the statements that succeeded in it. It fails only if the store is closed, if its body
  fails, or if a reference is broken at its end. -/
theorem transactions_keep_all_or_nothing {w : World} (h : w.store.inTransaction = false) :
    (∀ (x : Action) (e : OperationError), (x.run w).1 = .error e →
      (x.run w).2.store.tables = w.store.tables) ∧
    (∀ x : Action, x.program.run = x.run) ∧
    ∀ {α : Type} (p : Program α),
      (∀ e, (p.block.run w).1 = .error e → (p.block.run w).2.store.tables = w.store.tables) ∧
      ∀ a, ((p.block.run w).1 = .ok a ↔ w.store.isOpen = true ∧ (p.run w.begun).1 = .ok a ∧
          Tables.keepsReferences w.store.tables (p.reached w) = true) ∧
        ((p.block.run w).1 = .ok a → (p.block.run w).2.store.tables = p.reached w) := by
  refine ⟨fun x => x.reverts_run w h, Action.run_program, fun p => ⟨?_, p.run_block_eq_ok h⟩⟩
  exact Engine.Reverts.atomically p.run w h

namespace Sample

/-- The subscription is saved and the event stored by themselves; then, in a block inside, the event
is marked and an attempt for a subscription that is unknown is refused. The error is caught. -/
def interrupted : Program Unit := do
  let _ ← (Action.operation (.saveSubscription subscription)).program
  let _ ← (Action.operation (.storeEvent event)).program
  let _ ← Program.attempt (Program.block do
    let _ ← (Action.markDispatched event.eventId 5).program
    let stray := Attempt.new (.ofNat 7) application event.eventId (.ofNat 8) 0 0
    (Action.insertAttempt stray "key").program)

end Sample

/-- The mark of the block inside is kept, although the block failed, when the outer block ends, and
nothing is kept when that is abandoned. -/
theorem interrupted_block_keeps_its_mark : Sample.world.store.inTransaction = false ∧
    (Sample.interrupted.block.run Sample.world).2.store.tables.events =
      [{ Sample.event with dispatchedAt := some 5 }] ∧
    (Sample.interrupted.block.run Sample.world).2.store.tables.attempts = [] ∧
    ((do Sample.interrupted; Program.raise .abandoned : Program Unit).block.run
      Sample.world).2.store.tables = .empty := by
  obtain ⟨-, -, hp⟩ := transactions_keep_all_or_nothing (w := Sample.world) rfl
  have hok : (Sample.interrupted.block.run Sample.world).1 = .ok () := by
    cases hr : (Sample.interrupted.block.run Sample.world).1 with
    | ok a => rfl
    | error e =>
      have hi : (Sample.interrupted.block.run Sample.world).1.isOk := by decide +kernel
      rw [hr] at hi
      cases hi
  have ht := ((hp Sample.interrupted).2 ()).2 hok
  refine ⟨rfl, ?_, ?_, ?_⟩
  · rw [ht]
    decide +kernel
  · rw [ht]
    decide +kernel
  · refine (hp (do Sample.interrupted; Program.raise .abandoned)).1 .abandoned ?_
    rfl

end WebhookDelivery
