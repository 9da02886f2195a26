import WebhookDelivery.Delivery.Header
import WebhookDelivery.Matching
import WebhookDelivery.Settings

/-!
# WebhookDelivery.Delivery.Request

The request of a delivery: the target's own headers, those that describe the event, and the
signature.
-/

namespace WebhookDelivery

def eventIdHeader : String := "Hook0-Event-Id"

def eventTypeHeader : String := "Hook0-Event-Type"

def contentTypeHeader : String := "Content-Type"

/-- The named headers that a block has, with their values, by their names in lower case. -/
def signedHeaders (b : HeaderBlock) (names : List String) :
    Except HeaderError (List (String × String)) :=
  names.foldlM (fun signed name =>
    match b.get? name with
    | .error e => .error e
    | .ok none => .ok signed
    | .ok (some value) => .ok (Entries.put signed (Text.lowerString name) value)) []

/-- The target's headers with those of the event put over them. -/
def eventHeaders (event : Event) (target : Target) : Except HeaderError HeaderBlock :=
  HeaderBlock.ofAscii target.headers >>= fun b =>
  b.put contentTypeHeader event.contentType >>= fun b =>
  b.put eventIdHeader event.eventId.write >>= fun b =>
  b.put eventTypeHeader event.eventType

/-- The outbound headers. The signature covers those of the chosen headers that are present, and is
put last. -/
def deliveryHeaders (settings : WorkerSettings) (event : Event) (subscription : Subscription)
    (timestamp : Int) : Except HeaderError HeaderBlock :=
  eventHeaders event subscription.target >>= fun b =>
  signedHeaders b settings.signedHeaders >>= fun signed =>
  let b := if settings.signedHeaders.isEmpty then b else b.settle
  b.put settings.signatureHeader
    (Signature.sign event.payload timestamp subscription.secret signed)

end WebhookDelivery
