import WebhookDelivery.Api.Message
import WebhookDelivery.Delivery.Url

/-!
# WebhookDelivery.Api.Route

The endpoints of the HTTP interface. Each has one method; a path with a slash too many at its end is
sent to the endpoint without it.
-/

namespace WebhookDelivery

inductive Endpoint where
  | health
  | ingest
  | replay (event : String)
  | attempts
  | stats
  | response (id : String)
  deriving DecidableEq, Repr

namespace Endpoint

def method : Endpoint → String
  | health | attempts | stats | response _ => "GET"
  | ingest | replay _ => "POST"

/-- The endpoint of a path, given by the parts that follow its slashes. -/
def ofParts? : List (List Char) → Option Endpoint
  | [a] =>
    match String.ofList a with
    | "health" => some health
    | "events" => some ingest
    | "request_attempts" => some attempts
    | _ => none
  | [a, b] =>
    match String.ofList a, b.isEmpty with
    | "request_attempts", _ => if b = "stats".toList then some stats else none
    | "responses", false => some (response (String.ofList b))
    | _, _ => none
  | [a, b, c] =>
    if a = "events".toList ∧ b ≠ [] ∧ c = "replay".toList then some (replay (String.ofList b))
    else none
  | _ => none

def ofPath? : List Char → Option Endpoint
  | '/' :: path => ofParts? (Address.split '/' path)
  | _ => none

end Endpoint

/-- Where a request goes. -/
inductive Route where
  | found (endpoint : Endpoint)
  | otherMethod
  | elsewhere
  | nowhere
  deriving DecidableEq, Repr

/-- A path without the slashes at its end. -/
def dropLastSlashes (path : List Char) : List Char := (path.reverse.dropWhile (· == '/')).reverse

def ApiRequest.route (r : ApiRequest) : Route :=
  let path := Url.percentDecode r.path.toList
  match Endpoint.ofPath? path with
  | some endpoint => if r.method = endpoint.method then .found endpoint else .otherMethod
  | none =>
    if path.getLast? = some '/' ∧ (Endpoint.ofPath? (dropLastSlashes path)).isSome then .elsewhere
    else .nowhere

/-- A text in a query: a space is written as a plus sign, and what is not plain as its bytes. -/
def writeQueryText (s : String) : List Char :=
  s.toList.flatMap fun c =>
    if Url.isUnreserved c then [c] else if c = ' ' then ['+'] else Url.percentEncode c

def writeQuery : List (String × String) → List Char
  | [] => []
  | [p] => writeQueryText p.1 ++ '=' :: writeQueryText p.2
  | p :: rest => writeQueryText p.1 ++ '=' :: writeQueryText p.2 ++ '&' :: writeQuery rest

/-- The address of a request, as it is logged. -/
def ApiRequest.url (r : ApiRequest) : String :=
  let query := writeQuery r.query
  String.ofList ("http://api/api/v1".toList ++ Url.percentDecode r.path.toList ++
    if query.isEmpty then [] else '?' :: query)

end WebhookDelivery
