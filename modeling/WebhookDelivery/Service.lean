import WebhookDelivery.Dispatch
import WebhookDelivery.Pool
import WebhookDelivery.Replay
import WebhookDelivery.Store.Opening

/-!
# WebhookDelivery.Service

The operations that the engine offers to its callers, each at the current time.
-/

namespace WebhookDelivery
namespace Service

def logger : String := "hook0.service"

def maxPageSize : Int := 1000

def ingestEvent (event : Event) : Engine (List Attempt) := do
  Engine.ingest event (← Engine.clock)

def dispatchPending (limit : Int) : Engine Nat := do
  Engine.dispatchPending (← Engine.clock) limit

def replay (eventId application : Uuid) (subscription : Option Uuid) : Engine (List Attempt) := do
  Engine.replay eventId application subscription (← Engine.clock)

/-- A page of an application's attempts, newest first. -/
def listAttempts (application : Uuid) (filter : AttemptFilter) (now limit offset : Int) :
    Engine (List Attempt) :=
  Engine.listAttempts application filter now (min limit maxPageSize) offset

def getResponse (id application : Uuid) : Engine Response := do
  match ← Engine.getResponse id (some application) with
  | some r => return r
  | none => throw (.engine (.notFound "Response" id.write))

def attemptStats (application : Uuid) : Engine AttemptStats := do
  Engine.attemptStats application (← Engine.clock)

/-- Runs an operation of the service on the store at a path. -/
def opened {α : Type} (path : String) (site : DatabaseSite) (body : Engine α) : Engine α :=
  Engine.withStore path site do
    Engine.log .info logger "Hook0 service initialized" [("database_path", .str path)]
    body

end Service
end WebhookDelivery
