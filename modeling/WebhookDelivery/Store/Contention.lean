import WebhookDelivery.Error
import WebhookDelivery.Log
import WebhookDelivery.Text.CaseMap

/-!
# WebhookDelivery.Store.Contention

Several processes share the database, and one of them at a time may write. A connection that meets
the lock of another waits and tries again, longer each time, and gives up after the fifth try.

* `DatabaseError.isTransient`: the error will pass when the other process is done.
* `retrying`: the tries of an operation, with a warning from the second wait on.
-/

namespace WebhookDelivery

inductive DatabaseErrorKind where
  | operational
  | integrity
  | other
  deriving DecidableEq, Repr

/-- The kind of an error of the database by its class; an error of any other class is none of its. -/
def DatabaseErrorKind.ofClass? (name : String) : Option DatabaseErrorKind :=
  if name = "OperationalError" then some .operational
  else if name = "IntegrityError" then some .integrity
  else if others.contains name then some .other
  else none
where
  others : List String :=
    ["Error", "DatabaseError", "ProgrammingError", "InterfaceError", "DataError", "InternalError",
      "NotSupportedError"]

/-- What the database says of a statement that failed. -/
structure DatabaseError where
  kind : DatabaseErrorKind
  message : String
  deriving DecidableEq, Repr

/-- One text occurs in another. -/
def Text.occursIn (piece : List Char) : List Char → Bool
  | [] => piece.isEmpty
  | c :: rest => piece.isPrefixOf (c :: rest) || occursIn piece rest

namespace DatabaseError

def locked : DatabaseError := ⟨.operational, "database is locked"⟩

def transientMessages : List String :=
  ["database is locked", "database is busy", "database table is locked"]

def isTransient (e : DatabaseError) : Bool :=
  e.kind = .operational &&
    transientMessages.any fun m => Text.occursIn m.toList (Text.lower e.message.toList)

/-- The form in which the error reaches the callers of the store. -/
def reported (e : DatabaseError) : EngineError :=
  match e.kind with
  | .integrity => .storage e.message
  | _ => .storeUnavailable e.message

end DatabaseError

namespace Contention

/-- Seconds waited after each try but the last. -/
def waits : List Float := [0.1, 0.2, 0.4, 0.8]

/-- What happens between two tries: a wait, and before it a warning. -/
structure Pause (σ : Type) where
  warn : σ → σ
  sleep : Float → σ → σ

/-- Tries an operation, again after each wait for as long as it fails for a reason that will pass.
`tried` counts the tries that went before. -/
def retrying {σ α : Type} (pause : Pause σ) (op : σ → Except DatabaseError α × σ) (tried : Nat) :
    (waits : List Float) → σ → Except DatabaseError α × σ
  | [], s => op s
  | wait :: rest, s =>
    match op s with
    | (.ok x, s) => (.ok x, s)
    | (.error e, s) =>
      if e.isTransient then
        let s := if tried = 0 then s else pause.warn s
        retrying pause op (tried + 1) rest (pause.sleep wait s)
      else (.error e, s)

def warning : String := "Retrying store operation"

/-- What is seen of the tries of an operation: how long they waited, and what was logged. -/
structure Trial where
  sleeps : List Float
  log : Log

namespace Trial

def pause : Pause Trial where
  warn t := { t with log := t.log.writePlain warning }
  sleep seconds t := { t with sleeps := t.sleeps ++ [seconds] }

/-- Tries against a lock that is released during a wait of the given number, if it ever is. -/
def againstLock (releasedAt : Option Nat) : Except DatabaseError Unit × Trial :=
  retrying pause (fun t =>
    if releasedAt.any (· ≤ t.sleeps.length) then (.ok (), t) else (.error .locked, t))
    0 waits ⟨[], .empty⟩

end Trial
end Contention
end WebhookDelivery
