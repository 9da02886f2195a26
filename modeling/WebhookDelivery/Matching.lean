import WebhookDelivery.Event
import WebhookDelivery.Subscription
import WebhookDelivery.Text.Quoted

/-!
# WebhookDelivery.Matching

Which subscriptions receive an event: the enabled ones of its application that list its type and
whose label it carries with exactly the expected value. There are no patterns.

* `Subscription.accepts`: the decision.
* `Subscription.mismatch?`: the first criterion that fails, if any does.
-/

namespace WebhookDelivery

inductive Mismatch where
  | disabled
  | typeNotSubscribed (eventType : String)
  | labelMissing (key : String)
  | labelDiffers (key actual expected : String)
  deriving DecidableEq, Repr

def Mismatch.message : Mismatch → String
  | .disabled => "subscription is disabled"
  | .typeNotSubscribed eventType =>
    "event type " ++ Text.quoteString eventType ++ " is not subscribed"
  | .labelMissing key => "event has no label " ++ Text.quoteString key
  | .labelDiffers key actual expected =>
    "label " ++ Text.quoteString key ++ " is " ++ Text.quoteString actual ++ ", expected " ++
      Text.quoteString expected

namespace Subscription

def accepts (s : Subscription) (e : Event) : Bool :=
  s.isEnabled && s.eventTypes.contains e.eventType &&
    Entries.get? e.labels s.labelKey == some s.labelValue

def mismatch? (s : Subscription) (e : Event) : Option Mismatch :=
  if !s.isEnabled then some .disabled
  else if !s.eventTypes.contains e.eventType then some (.typeNotSubscribed e.eventType)
  else match Entries.get? e.labels s.labelKey with
    | none => some (.labelMissing s.labelKey)
    | some actual =>
      if actual = s.labelValue then none else some (.labelDiffers s.labelKey actual s.labelValue)

/-- The subscriptions of the event's application that accept it, in their order. -/
def matching (subscriptions : List Subscription) (e : Event) : List Subscription :=
  subscriptions.filter fun s => s.applicationId == e.applicationId && s.accepts e

end Subscription

/-- The name under which an attempt is created at most once: one for the dispatch of an event to a
subscription, and one for each replay. -/
inductive DispatchKey where
  | initial (eventId subscriptionId : Uuid)
  | replay (eventId subscriptionId draw : Uuid)
  | named (key : String)
  deriving DecidableEq, Repr

def DispatchKey.write : DispatchKey → String
  | initial e s => e.write ++ ":" ++ s.write ++ ":initial"
  | replay e s draw => e.write ++ ":" ++ s.write ++ ":replay:" ++ draw.write
  | named key => key

end WebhookDelivery
