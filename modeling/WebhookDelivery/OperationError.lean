import WebhookDelivery.Delivery.Header
import WebhookDelivery.Delivery.Idna
import WebhookDelivery.Error
import WebhookDelivery.RetryPolicy
import WebhookDelivery.Store.Statement

/-!
# WebhookDelivery.OperationError

Why an operation of the engine breaks off: the errors that it reports to its callers, and those that
it does not foresee.
-/

namespace WebhookDelivery

inductive OperationError where
  | engine (e : EngineError)
  | statement (e : StatementError)
  | integerTooLarge
  | record (e : RecordError)
  | retry (e : RetryError)
  | missingRows (attempt : Uuid)
  | notClaimed
  | unknownStatus (name : String)
  | unreadableSettings
  | storeClosed
  | abandoned
  | header (e : HeaderError)
  | unreadableHost (e : IdnaError)
  | unreadableAddress (address : String)
  | crash (message : String)
  deriving DecidableEq, Repr

namespace OperationError

/-- The wording of those errors that have one of their own. -/
def message? : OperationError → Option String
  | engine e => some e.message
  | statement e => some e.message
  | missingRows attempt => some ("Attempt " ++ attempt.write ++ " references missing rows")
  | notClaimed => some "Only a claimed attempt can be finalized"
  | storeClosed => some "Storage not initialized. Call initialize() first."
  | abandoned => some "transaction abandoned"
  | crash message => some message
  | _ => none

/-- The form in which an error leaves the outermost transaction. -/
def reported : OperationError → OperationError
  | statement e =>
    if e.isOperational then engine (.storeUnavailable e.message) else engine (.storage e.message)
  | e => e

/-- The store has failed, so that no outcome could be recorded. -/
def isStorage : OperationError → Bool
  | engine e => e.kind == .storage || e.kind == .storeUnavailable
  | _ => false

end OperationError

/-- The status of a name. -/
def AttemptStatus.named (name : String) : Except OperationError AttemptStatus :=
  match ofName? name with
  | some status => .ok status
  | none => .error (.unknownStatus name)

end WebhookDelivery
