import WebhookDelivery.RetrySchedule

/-!
# WebhookDelivery.Subscription

Subscriptions: the registrations of consumers to receive the events of some types that carry one
label with one value, at an HTTP endpoint.
-/

namespace WebhookDelivery

/-- The URL is any text: one that is malformed shows when a delivery is executed. -/
structure Target where
  method : String
  url : String
  headers : List (String × String)
  deriving DecidableEq, Repr

namespace Target

def fieldNames : List String := ["method", "url", "headers"]

def read : Reader Target :=
  Reader.closedRecord fieldNames fun members =>
    mk <$> Reader.withDefault members "method" "POST" (fun j =>
        (Reader.textOfLength 1 j).map Text.upperString)
      <*> Reader.required members "url" (Reader.textOfLength 1)
      <*> Reader.withDefault members "headers" [] (Reader.dictionary Reader.text)

end Target

/-- `dedicatedWorkers` names the workers that alone may deliver; where it is empty the general ones
do. `eventTypes` holds distinct texts in increasing order. -/
structure Subscription where
  subscriptionId : Uuid
  applicationId : Uuid
  isEnabled : Bool
  eventTypes : List String
  labelKey : String
  labelValue : String
  target : Target
  secret : String
  dedicatedWorkers : List String
  retrySchedule : Option RetrySchedule
  description : Option String
  createdAt : ClockTime
  deriving DecidableEq, Repr

namespace Subscription

def fieldNames : List String :=
  ["subscription_id", "application_id", "is_enabled", "event_types", "label_key", "label_value",
    "target", "secret", "dedicated_workers", "retry_schedule", "description", "created_at"]

def readEventTypes : Reader (List String) := fun j =>
  (Reader.textSet j).require (fun types => !types.isEmpty) .tooShort

def readFields (freshId : Uuid) (now : Int) (members : List (String × Json)) :
    Validated Subscription :=
  mk <$> Reader.withDefault members "subscription_id" freshId Reader.uuid
    <*> Reader.required members "application_id" Reader.uuid
    <*> Reader.withDefault members "is_enabled" true Reader.boolean
    <*> Reader.required members "event_types" readEventTypes
    <*> Reader.required members "label_key" (Reader.textOfLength 1)
    <*> Reader.required members "label_value" (Reader.textOfLength 1)
    <*> Reader.required members "target" Target.read
    <*> Reader.required members "secret" (Reader.textOfLength 1)
    <*> Reader.withDefault members "dedicated_workers" [] (Reader.list Reader.text)
    <*> Reader.withDefault members "retry_schedule" none (Reader.nullable RetrySchedule.read)
    <*> Reader.withDefault members "description" none (Reader.nullable Reader.text)
    <*> Reader.withDefault members "created_at" (.utc now) Reader.time

/-- Reads a subscription; without an identifier it takes `freshId`. -/
def read (freshId : Uuid) (now : Int) : Reader Subscription := fun j =>
  (Reader.closedRecord fieldNames (readFields freshId now) j).require
    (fun s => s.dedicatedWorkers.Nodup) (.value "dedicated_workers must not contain duplicates")

/-- A worker of this name and kind may claim the deliveries of a subscription. -/
def inScope (s : Subscription) (worker : String) (dedicated : Bool) : Bool :=
  if dedicated then s.dedicatedWorkers.contains worker else s.dedicatedWorkers.isEmpty

end Subscription
end WebhookDelivery
