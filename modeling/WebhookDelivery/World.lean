import WebhookDelivery.Delivery.Exchange
import WebhookDelivery.Delivery.Target
import WebhookDelivery.Log

/-!
# WebhookDelivery.World

What the engine acts on and is acted on by: the clock, the supply of new identifiers, the source of
jitter, the network, the log and the store. An operation of the engine is a function on it, which
leaves its mark also where it breaks off.
-/

namespace WebhookDelivery

inductive IdKind where
  | attempt
  | response
  | subscription
  | replay
  deriving DecidableEq, Repr

/-- New identifiers: the `n`-th of a kind is `make kind n`, counted from 1. -/
structure IdSupply where
  make : IdKind → Nat → Uuid
  attempts : Nat
  responses : Nat
  subscriptions : Nat
  replays : Nat

namespace IdSupply

def drawn (s : IdSupply) : IdKind → Nat
  | .attempt => s.attempts
  | .response => s.responses
  | .subscription => s.subscriptions
  | .replay => s.replays

/-- The identifier that is drawn next. -/
def next (s : IdSupply) (kind : IdKind) : Uuid := s.make kind (s.drawn kind + 1)

def advance (s : IdSupply) : IdKind → IdSupply
  | .attempt => { s with attempts := s.attempts + 1 }
  | .response => { s with responses := s.responses + 1 }
  | .subscription => { s with subscriptions := s.subscriptions + 1 }
  | .replay => { s with replays := s.replays + 1 }

end IdSupply

structure SentRequest where
  method : String
  url : String
  headers : HeaderBlock
  body : Bytes
  chunksRead : Nat

/-- `labels` judges the labels of host names. The receiver gives the replies in order, and the last of
them again and again. `lookups` and `requests` record what was asked of the network. -/
structure Network where
  labels : LabelRules
  resolve : Resolver
  replies : List Reply
  lookups : List (String × Option Int)
  requests : List SentRequest

/-- Checks a target, and tells which name was looked up. -/
def Network.checkTarget (n : Network) (checkAddresses : Bool) (url : String) :
    TargetCheck × Option (String × Option Int) :=
  TargetCheck.ofUrl n.labels n.resolve checkAddresses url

def Reply.ok : Reply := ⟨200, [], 0, none, [.data []]⟩

/-- The reply to the next request. -/
def Network.nextReply (n : Network) : Reply :=
  match n.replies[n.requests.length]? with
  | some r => r
  | none => n.replies.getLast?.getD .ok

/-- `clock` counts the microseconds since 1970 and `elapsed` those of a clock that is never set. -/
structure World where
  clock : Int
  elapsed : Int
  ids : IdSupply
  draws : Draws
  network : Network
  log : Log
  store : Store

/-- An operation of the engine. -/
abbrev Engine := ExceptT OperationError (StateM World)

namespace Engine

variable {α : Type}

def drawId (kind : IdKind) : Engine Uuid :=
  modifyGet fun w => (w.ids.next kind, { w with ids := w.ids.advance kind })

def clock : Engine Int := do return (← get).clock

def passTime (micros : Int) : Engine Unit :=
  modify fun w => { w with clock := w.clock + micros, elapsed := w.elapsed + micros }

def log (level : LogLevel) (logger event : String) (fields : LogFields) : Engine Unit :=
  modify fun w => { w with log := w.log.write level logger event fields none }

def logCause (logger event : String) (cause : OperationError) : Engine Unit :=
  modify fun w => { w with log := w.log.write .error logger event [] (some cause) }

/-- Runs an operation with fields bound to all its lines. -/
def withFields (fields : LogFields) (body : Engine α) : Engine α := fun w =>
  let shadowed := w.log.shadowed fields
  let (result, w) := body { w with log := w.log.bind fields }
  (result, { w with log := w.log.unshadow fields shadowed })

/-- The value, or breaking off with an error. -/
def ofExcept {ε : Type} (wrap : ε → OperationError) : Except ε α → Engine α
  | .ok x => pure x
  | .error e => throw (wrap e)

/-- The result of an operation as a value. -/
def attempt? (body : Engine α) : Engine (Except OperationError α) := fun w =>
  let (result, w) := body w
  (.ok result, w)

end Engine
end WebhookDelivery
