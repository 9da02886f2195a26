import WebhookDelivery.Matching
import WebhookDelivery.Store.Deliveries

/-!
# WebhookDelivery.Replay

Delivering past events again. An event goes to one subscription, whether or not it accepts the
event, or to all that accept it now; a target that has an open attempt gets no second one.
-/

namespace WebhookDelivery
namespace Engine

def replayLogger : String := "hook0.webhooks.replay"

/-- The open attempt of a target, or a new one. -/
def replayTo (eventId application : Uuid) (now : Int) (s : Subscription) : Engine Attempt := do
  match ← findOpenAttempt eventId s.subscriptionId with
  | some existing => return existing
  | none =>
    let id ← drawId .attempt
    let attempt := Attempt.new id application eventId s.subscriptionId now now
    let draw ← drawId .replay
    let _ ← insertAttempt attempt (DispatchKey.replay eventId s.subscriptionId draw).write
    return attempt

/-- The subscriptions to which an event is replayed. -/
def replayTargets (event : Event) (application : Uuid) :
    (subscription : Option Uuid) → Engine (List Subscription)
  | some id => do
    match ← getSubscription id (some application) with
    | none => throw (.engine (.notFound "Subscription" id.write))
    | some s =>
      if s.isEnabled then return [s]
      else
        throw (.engine (.validation "subscription_id"
          ("Subscription " ++ id.write ++ " is disabled")))
  | none => do
    return Subscription.matching (← listSubscriptions application true) event

/-- Replays an event of an application, and gives one attempt for every target. -/
def replay (eventId application : Uuid) (subscription : Option Uuid) (now : Int) :
    Engine (List Attempt) := do
  let attempts ← atomically do
    match ← getEvent eventId (some application) with
    | none => throw (.engine (.notFound "Event" eventId.write))
    | some event =>
      let targets ← replayTargets event application subscription
      targets.mapM (replayTo eventId application now)
  log .info replayLogger "Event replayed"
    [("event_id", .str eventId.write), ("application_id", .str application.write),
      ("attempts", .int attempts.length)]
  return attempts

end Engine
end WebhookDelivery
