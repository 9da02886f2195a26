import WebhookDelivery.Delivery.Url
import WebhookDelivery.Settings

/-!
# WebhookDelivery.Delivery.Target

Whether a target may be called. Its URL must be well formed, have the scheme `http` or `https` and a
host, and every address of the host must be globally reachable. A host that is an address is judged
by itself; any other is looked up by the name that it stands for.
-/

namespace WebhookDelivery

inductive TargetRefusal where
  | malformed (e : UrlError)
  | badScheme (scheme : String)
  | noHost
  | notGlobal (host address : String)
  deriving DecidableEq, Repr

def TargetRefusal.message : TargetRefusal → String
  | .malformed e => "malformed URL: " ++ e.message
  | .badScheme scheme => "unsupported scheme " ++ Text.quoteString scheme
  | .noHost => "URL has no host"
  | .notGlobal host address => host ++ " resolves to non-global address " ++ address

/-- Why a host name could not be looked up. -/
inductive LookupError where
  | unknownHost (message : String)
  | system (message : String)
  deriving DecidableEq, Repr

def LookupError.message : LookupError → String
  | .unknownHost message | .system message => message

/-- What a look-up answers for a host and a port. -/
abbrev Resolver := String → Option Int → Except LookupError (List String)

/-- The result of checking a target. -/
inductive TargetCheck where
  | allowed
  | refused (why : TargetRefusal)
  | unresolved (e : LookupError)
  | unreadableHost (e : IdnaError)
  | unreadableAddress (address : String)
  deriving DecidableEq, Repr

namespace TargetCheck

/-- The URL of a target that has a scheme to call. -/
def callable? (rules : LabelRules) (text : String) : Except TargetRefusal Url :=
  match Url.parse rules text with
  | .error e => .error (.malformed e)
  | .ok url =>
    if url.scheme ≠ "http" ∧ url.scheme ≠ "https" then .error (.badScheme url.scheme)
    else .ok url

/-- Judges the addresses of a host in turn. The scope of an address does not matter. -/
def ofAddresses (host : String) : List String → TargetCheck
  | [] => .allowed
  | address :: rest =>
    match Address.read? (address.toList.takeWhile (· != '%')) with
    | none => .unreadableAddress address
    | some a => if a.isGlobal then ofAddresses host rest else .refused (.notGlobal host address)

/-- Judges a host by its name and the port of the URL, and tells which name was looked up. -/
def ofHost (resolve : Resolver) (checkAddresses : Bool) (host : String) (port : Option Int) :
    TargetCheck × Option (String × Option Int) :=
  if host.isEmpty then (.refused .noHost, none)
  else if !checkAddresses then (.allowed, none)
  else match Address.read? host.toList with
    | some address => (ofAddresses host [String.ofList address.write], none)
    | none =>
      match resolve host port with
      | .error e => (.unresolved e, some (host, port))
      | .ok addresses => (ofAddresses host addresses, some (host, port))

/-- Checks a target, and tells which name was looked up. -/
def ofUrl (rules : LabelRules) (resolve : Resolver) (checkAddresses : Bool) (text : String) :
    TargetCheck × Option (String × Option Int) :=
  match callable? rules text with
  | .error why => (.refused why, none)
  | .ok url =>
    match url.hostName rules with
    | .error e => (.unreadableHost e, none)
    | .ok host => ofHost resolve checkAddresses host url.port

end TargetCheck
end WebhookDelivery
