import WebhookDelivery.Matching
import WebhookDelivery.Store.Deliveries

/-!
# WebhookDelivery.Dispatch

The fan-out of events: the first time an event is submitted, one attempt is created for every
subscription that accepts it. An event that was stored before is routed as it was stored, and one
that was fanned out before creates nothing.
-/

namespace WebhookDelivery
namespace Engine

def dispatchLogger : String := "hook0.webhooks.dispatcher"

/-- Creates the attempts of an event for subscriptions in turn, and gives the new ones. -/
def createAttempts (event : Event) (now due : Int) :
    (subscriptions : List Subscription) → Engine (List Attempt)
  | [] => pure []
  | s :: rest => do
    let id ← drawId .attempt
    let attempt := Attempt.new id event.applicationId event.eventId s.subscriptionId now due
    let isNew ← insertAttempt attempt (DispatchKey.initial event.eventId s.subscriptionId).write
    let more ← createAttempts event now due rest
    return if isNew then attempt :: more else more

/-- The event that is to be fanned out: the submitted one if it is new, and otherwise the stored
one, unless it was fanned out before. -/
def undispatchedEvent? (event : Event) : Engine (Option Event) := do
  if ← insertEvent event then return some event
  else
    match ← getEvent event.eventId none with
    | some stored => return if stored.dispatchedAt.isSome then none else some stored
    | none => return none

/-- Stores an event if need be and fans it out. Events of the future are held until they occur. -/
def ingest (event : Event) (now : Int) : Engine (List Attempt) := do
  let done ← atomically do
    match ← undispatchedEvent? event with
    | none => return none
    | some event =>
      let subscriptions ← listSubscriptions event.applicationId true
      let matched := Subscription.matching subscriptions event
      let created ← createAttempts event now (max now event.occurredAt) matched
      let _ ← markDispatched event.eventId now
      return some (event, matched, created)
  match done with
  | none => return []
  | some (event, matched, created) =>
    log .info dispatchLogger "Event dispatched"
      [("event_id", .str event.eventId.write), ("event_type", .str event.eventType),
        ("matched", .int matched.length), ("created", .int created.length)]
    return created

def ingestAll (now : Int) : List Event → Engine Nat
  | [] => pure 0
  | e :: rest => do
    let created ← ingest e now
    return created.length + (← ingestAll now rest)

/-- Fans out stored events whose fan-out never happened, and counts the attempts created. -/
def dispatchPending (now limit : Int) : Engine Nat := do
  let events ← listUndispatched limit
  let created ← ingestAll now events
  if !events.isEmpty then
    log .info dispatchLogger "Recovered undispatched events"
      [("events", .int events.length), ("attempts", .int created)]
  return created

end Engine
end WebhookDelivery
