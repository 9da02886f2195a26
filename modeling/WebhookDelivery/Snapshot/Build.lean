import WebhookDelivery.Json.Decode
import WebhookDelivery.World

/-!
# WebhookDelivery.Snapshot.Build

Building records from documents that give times in microseconds since 1970. A record without an
identifier of its own draws one, also where it then turns out to have faults.
-/

namespace WebhookDelivery
namespace Snapshot

def timeNames : List String :=
  ["occurred_at", "received_at", "dispatched_at", "created_at", "picked_at", "succeeded_at",
    "failed_at", "delay_until"]

/-- A document with the times that are numbers written as texts. -/
def writeTimes : Json → Json
  | .obj members => .obj (members.map fun (name, value) =>
      match value with
      | .int micros => if timeNames.contains name then (name, .str (ClockTime.utc micros).writeDocument)
        else (name, value)
      | _ => (name, value))
  | j => j

def toEvent (now : Int) (j : Json) : Except RecordError Event :=
  match j, (j.getD "payload" ([] : Bytes)) with
  | .obj members, .ok payload =>
    (Event.read now (writeTimes (.obj (Entries.put members "payload" (.str ""))))).map fun e =>
      { e with payload := payload }
  | j, _ => Event.read now j

end Snapshot

namespace Engine

def buildEvent (j : Json) : Engine Event := do
  ofExcept .record (Snapshot.toEvent (← clock) j)

/-- Reads a record, which draws an identifier if it has none under `idName`. -/
def build {α : Type} (kind : IdKind) (idName : String) (read : Uuid → Int → Reader α) (j : Json) :
    Engine α := do
  let now ← clock
  let id ← if (j.member? idName).isSome then pure default else drawId kind
  ofExcept .record (read id now (Snapshot.writeTimes j)).toExcept

def buildSubscription : Json → Engine Subscription :=
  build .subscription "subscription_id" Subscription.read

def buildAttempt : Json → Engine Attempt := build .attempt "request_attempt_id" Attempt.read

def buildResponse : Json → Engine Response := build .response "response_id" Response.read

/-- Reads a record that has no identifier to draw. -/
def buildRecord {α : Type} (read : Reader α) (j : Json) : Engine α :=
  ofExcept .record (read j).toExcept

end Engine
end WebhookDelivery
