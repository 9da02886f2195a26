import WebhookDelivery.Store.Transaction

/-!
# WebhookDelivery.Store.Records

The operations on events and subscriptions. Each runs in a transaction of its own unless one is
under way.
-/

namespace WebhookDelivery
namespace Engine

def readEvent (row : Event) : Engine Event := ofExcept .record row.check

def readSubscription (row : Subscription) : Engine Subscription := ofExcept .record row.readRow

def readResponse (row : Response) : Engine Response := ofExcept .record row.readRow

def readAttempt (row : AttemptRow) : Engine Attempt := ofExcept .record row.read

/-- A row that is in the scope of an application, where one is asked for. -/
def inScope {α : Type} (application : Option Uuid) (owner : α → Uuid) (row : Option α) : Option α :=
  row.filter fun r => application.all (· == owner r)

/-- The record of a row, if there is a row. -/
def readRow {α β : Type} (read : α → Engine β) : Option α → Engine (Option β)
  | none => pure none
  | some row => some <$> read row

def insertEvent (e : Event) : Engine Bool := atomically do
  touch .event
  change (·.insertEvent e)

def getEvent (id : Uuid) (application : Option Uuid) : Engine (Option Event) := do
  let row ← atomically do
    touch .event
    return inScope application Event.applicationId ((← tables).event? id)
  readRow readEvent row

def markDispatched (id : Uuid) (time : Int) : Engine Bool := atomically do
  touch .event
  change (·.markDispatched id time)

def listUndispatched (limit : Int) : Engine (List Event) := do
  let rows ← atomically do
    touch .event
    checkInteger limit
    return (← tables).undispatched limit
  rows.mapM readEvent

def saveSubscription (s : Subscription) : Engine Unit := atomically do
  touch .subscription
  change fun t => ((), t.saveSubscription s)

def getSubscription (id : Uuid) (application : Option Uuid) : Engine (Option Subscription) := do
  let row ← atomically do
    touch .subscription
    return inScope application Subscription.applicationId ((← tables).subscription? id)
  readRow readSubscription row

def listSubscriptions (application : Uuid) (enabledOnly : Bool) : Engine (List Subscription) := do
  let rows ← atomically do
    touch .subscription
    return (← tables).subscriptionsOf application enabledOnly
  rows.mapM readSubscription

def setSubscriptionEnabled (id : Uuid) (enabled : Bool) : Engine Bool := atomically do
  touch .subscription
  change (·.setEnabled id enabled)

end Engine
end WebhookDelivery
