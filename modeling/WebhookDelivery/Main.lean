import WebhookDelivery.CommandLine.Invocation
import WebhookDelivery.Json.Printer

/-!
# WebhookDelivery.Main

The program. It works on a store in memory, which is empty when it starts, with a clock that begins
with the year 1970, and with no network in reach. Workers stop at once, as there is nothing that they
could deliver.
-/

namespace WebhookDelivery
namespace Main

/-- The variables of the environment that bear on the settings. -/
def environment : IO (List (String × String)) := do
  let values ← Environment.variableNames.mapM fun name => do return (name, ← IO.getEnv name)
  return values.filterMap fun v => v.2.map fun value => (v.1, value)

/-- Identifiers that count up from one drawn at random. -/
def idSupply (first : Nat) : IdSupply where
  make kind n :=
    let offset :=
      match kind with
      | .attempt => 0
      | .response => 1
      | .subscription => 2
      | .replay => 3
    .ofNat (first + 4 * n + offset)
  attempts := 0
  responses := 0
  subscriptions := 0
  replays := 0

def noNetwork : Network :=
  ⟨.asciiOnly, fun host _ => .error (.unknownHost ("no network to look up " ++ host)), [], [], []⟩

def world (first : Nat) : World where
  clock := 0
  elapsed := 0
  ids := idSupply first
  draws := ⟨[0.5], 0⟩
  network := noNetwork
  log := .empty
  store := (Store.create true).close

def lineText : LogLine → String
  | .structured fields _ => (Json.obj fields).write
  | .plain text => text

/-- Runs an operation, shows what it logged and ends as it did. -/
def finish {α : Type} (outcome : Except OperationError α → CommandLine.Outcome) (w : World)
    (body : Engine α) : IO CommandLine.Outcome := do
  let (result, w) := body.run w
  w.log.lines.forM fun line => IO.println (lineText line)
  return outcome result

def perform (w : World) : CommandLine.Invocation → IO CommandLine.Outcome
  | .run s => finish CommandLine.ofPool w (CommandLine.runPool s .free 0)
  | .dispatchPending s limit =>
    finish CommandLine.ofDispatch w (CommandLine.dispatch s .free limit)
  | .serve s _ _ =>
    finish CommandLine.ofPool w (Service.opened s.databasePath .free (pure ()))

end Main
end WebhookDelivery

open WebhookDelivery in
def main (args : List String) : IO UInt32 := do
  let first ← IO.rand 0 (Nat.pow 2 62)
  let outcome ← match CommandLine.read (← Main.environment) args with
    | .error e => pure e.outcome
    | .ok invocation => Main.perform (Main.world first) invocation
  outcome.lines.forM fun line => IO.println line
  return outcome.exitCode.toUInt32
