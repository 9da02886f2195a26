import WebhookDelivery.Delivery.Request
import WebhookDelivery.Text.Base64
import WebhookDelivery.World

/-!
# WebhookDelivery.Delivery.Client

The execution of an attempt: the target is checked, one signed request is sent, and what came of it
is put into a response.

* A complete reply with a status from 200 to 299 is a success; any other complete reply is a failure
  of HTTP.
* A target that must not be called is never called.
-/

namespace WebhookDelivery
namespace Client

def logger : String := "hook0.webhooks.delivery"

/-- Seconds since an earlier reading of the elapsed time, in whole milliseconds. The elapsed time never
goes back, nor do its seconds in double precision. -/
def elapsedMs (start now : Int) : Int :=
  let seconds := fun micros : Int => Double.ofRatio micros 1000000
  max ((Double.truncate? ((seconds now - seconds start) * 1000.0)).getD 0) 0

/-- What a complete reply leaves in a response. -/
structure Received where
  status : Int
  headers : List (String × String)
  body : String
  deriving DecidableEq, Repr

/-- The response of an execution that began when the elapsed time was `start`. -/
def respond (start : Int) (attempt : Attempt) (error : Option FailureKind)
    (received : Option Received) : Engine Response := do
  let id ← Engine.drawId .response
  let w ← get
  return {
    responseId := id, attemptId := attempt.attemptId, applicationId := attempt.applicationId,
    error := error, httpCode := received.map (·.status),
    headers := received.map fun r => r.headers.map fun h => (h.1, .str h.2),
    body := received.map (·.body), elapsedMs := elapsedMs start w.elapsed,
    createdAt := .utc w.clock }

def checkTarget (settings : WorkerSettings) (url : String) : Engine TargetCheck :=
  modifyGet fun w =>
    let (check, lookup) :=
      w.network.checkTarget (!settings.disableTargetCheck) url
    (check, { w with network :=
      { w.network with lookups := w.network.lookups ++ lookup.toList } })

/-- A URL that carries a user name or a password adds them to the request. -/
def addCredentials (url : String) (headers : HeaderBlock) : Except HeaderError HeaderBlock :=
  match Url.credentials? url with
  | none => .ok headers
  | some (user, password) =>
    let token := Text.base64Encode (Text.utf8 user ++ Text.utf8 [':'] ++ Text.utf8 password)
    headers.put "Authorization" (String.ofList ("Basic ".toList ++ token))

/-- Names outside ASCII cannot be sent. -/
def sendable (headers : HeaderBlock) : Except HeaderError HeaderBlock :=
  if headers.fields.all fun f => f.name.all (· < 0x80) then .ok headers else .error .notEncodable

/-- Sends a request and receives the reply to it. -/
def exchange (settings : WorkerSettings) (method url : String) (headers : HeaderBlock)
    (body : Bytes) : Engine (Reply × Exchange) :=
  modifyGet fun w =>
    let reply := w.network.nextReply
    let allowed := (ClockTime.microsOfSeconds? settings.timeout).toOption
    let exchange := Exchange.ofReply settings.maxBodyBytes.toNat allowed reply
    let sent : SentRequest := ⟨method, url, headers, body, exchange.chunksRead⟩
    ((reply, exchange), { w with
      clock := w.clock + exchange.elapsed, elapsed := w.elapsed + exchange.elapsed,
      network := { w.network with requests := w.network.requests ++ [sent] } })

def isSuccess (status : Int) : Bool := 200 ≤ status && status ≤ 299

def received (reply : Reply) (body : Bytes) : Received :=
  ⟨reply.status, HeaderBlock.toEntries ⟨reply.headers, none⟩, String.ofList (Text.utf8Lossy body)⟩

/-- Sends the delivery to a target that was checked. -/
def deliver (settings : WorkerSettings) (fields : LogFields) (start : Int) (attempt : Attempt)
    (event : Event) (subscription : Subscription) (now : Int) : Engine Response := do
  let target := subscription.target
  let headers ← Engine.ofExcept .header
    (deliveryHeaders settings event subscription (ClockTime.unixSeconds now))
  let headers ← Engine.ofExcept .header (sendable headers)
  let headers ← Engine.ofExcept .header (addCredentials target.url headers)
  let (reply, exchange) ← exchange settings target.method target.url headers event.payload
  match exchange.result with
  | .timedOut | .broken .timeout =>
    Engine.log .info logger "Delivery timed out" fields
    respond start attempt (some .timeout) none
  | .broken (.invalidUrl m) | .broken (.unsupportedProtocol m) =>
    Engine.log .warning logger "Invalid target" (fields ++ [("reason", .str m)])
    respond start attempt (some .invalidTarget) none
  | .broken (.connection m) =>
    Engine.log .info logger "Delivery connection failed" (fields ++ [("error", .str m)])
    respond start attempt (some .connection) none
  | .broken (.crash m) => throw (.crash m)
  | .complete body =>
    let success := isSuccess reply.status
    Engine.log .info logger (if success then "Webhook delivered" else "Webhook rejected")
      (fields ++ [("http_code", .int reply.status)])
    respond start attempt (if success then none else some .http) (some (received reply body))

/-- Executes an attempt at a time. Failed deliveries are responses; only what the engine does not
foresee breaks off. -/
def execute (settings : WorkerSettings) (attempt : Attempt) (event : Event)
    (subscription : Subscription) (now : Int) : Engine Response := do
  let start := (← get).elapsed
  let url := subscription.target.url
  let fields : LogFields := [("request_attempt_id", .str attempt.attemptId.write),
    ("subscription_id", .str subscription.subscriptionId.write), ("target", .str url)]
  match ← checkTarget settings url with
  | .refused why =>
    Engine.log .warning logger "Invalid target" (fields ++ [("reason", .str why.message)])
    respond start attempt (some .invalidTarget) none
  | .unresolved e =>
    Engine.log .info logger "Target resolution failed" (fields ++ [("error", .str e.message)])
    respond start attempt (some .connection) none
  | .unreadableHost e => throw (.unreadableHost e)
  | .unreadableAddress address => throw (.unreadableAddress address)
  | .allowed => deliver settings fields start attempt event subscription now

/-- The line with which a client announces that it may call any address. -/
def announce (settings : WorkerSettings) : Engine Unit := do
  if settings.disableTargetCheck then
    Engine.log .warning logger "Target IP check is disabled: private addresses can be called" []

end Client
end WebhookDelivery
