import WebhookDelivery.World

/-!
# WebhookDelivery.Store.Transaction

Running statements on the store. The outermost transaction either keeps all that its statements did
or nothing; one inside another joins it.

* `atomically`: an operation as a transaction, or as part of the one that is under way.
* `settle_ok_tables`: the tables after a transaction are those after all of its statements, or those
  before the first.
-/

namespace WebhookDelivery
namespace Engine

variable {α : Type}

def putTables (t : Tables) : Engine Unit :=
  modify fun w => { w with store := { w.store with tables := t } }

def tables : Engine Tables := do return (← get).store.tables

/-- Reads or changes a table that must be there. -/
def touch (name : TableName) : Engine Unit := do
  if (← tables).lost.contains name then throw (.statement (.missingTable name))

/-- A number that a column of integers cannot hold is refused. -/
def checkInteger (n : Int) : Engine Unit :=
  if -AttemptRow.maxInteger - 1 ≤ n ∧ n ≤ AttemptRow.maxInteger then pure ()
  else throw .integerTooLarge

/-- A change of the tables that gives a value. -/
def change (f : Tables → α × Tables) : Engine α := do
  let (x, t) := f (← tables)
  putTables t
  return x

/-- A statement that may be refused. -/
def statement (f : Tables → Except StatementError (α × Tables)) : Engine α := do
  match f (← tables) with
  | .ok (x, t) => putTables t; return x
  | .error e => throw (.statement e)

/-- The world after a transaction that began with the tables `before`. -/
def settle (before : Tables) (result : Except OperationError α) (w : World) :
    Except OperationError α × World :=
  let rolledBack := { w with store := { w.store with tables := before, inTransaction := false } }
  match result with
  | .error e => (.error e.reported, rolledBack)
  | .ok x =>
    if Tables.keepsReferences before w.store.tables then
      (.ok x, { w with store := { w.store with inTransaction := false } })
    else (.error (OperationError.statement .brokenReference).reported, rolledBack)

/-- A transaction that ends keeps what it did, or else fails and leaves nothing of it. -/
theorem settle_ok_tables (before : Tables) (x : α) (w : World) :
    (settle before (.ok x) w).2.store.tables =
      if Tables.keepsReferences before w.store.tables then w.store.tables else before := by
  unfold settle
  split <;> rename_i h
  · cases h
  · split <;> simp_all

/-- Runs an operation as a transaction, or as part of the one that is under way. -/
def atomically (body : Engine α) : Engine α := fun w =>
  if !w.store.isOpen then (.error .storeClosed, w)
  else if w.store.inTransaction then body w
  else
    let (result, after) := body { w with store := { w.store with inTransaction := true } }
    settle w.store.tables result after

end Engine
end WebhookDelivery
