import WebhookDelivery.Json.Basic
import WebhookDelivery.Signature

/-!
# WebhookDelivery.Error

The errors that the engine reports to its callers. Failed deliveries are not among them: those are
recorded as responses.
-/

namespace WebhookDelivery

/-- The kinds of errors; the store being out of reach is a case of the store having failed. -/
inductive ErrorKind where
  | general
  | validation
  | notFound
  | storage
  | storeUnavailable
  | signature
  | configuration
  deriving DecidableEq, Repr

namespace ErrorKind

def code : ErrorKind → String
  | general => "hook0_error"
  | validation => "validation_error"
  | notFound => "not_found"
  | storage => "storage_error"
  | storeUnavailable => "store_unavailable"
  | signature => "signature_error"
  | configuration => "configuration_error"

/-- The kind of which a kind is a case. -/
def parent? : ErrorKind → Option ErrorKind
  | general => none
  | storeUnavailable => some storage
  | _ => some general

/-- A kind and all that it is a case of. -/
def lineage : ErrorKind → List ErrorKind
  | general => [general]
  | storeUnavailable => [storeUnavailable, storage, general]
  | kind => [kind, general]

end ErrorKind

inductive EngineError where
  | general (message : String)
  | validation (field detail : String)
  | notFound (resource id : String)
  | storage (message : String)
  | storeUnavailable (message : String)
  | signature (message : String)
  | configuration (message : String)
  deriving DecidableEq, Repr

namespace EngineError

def kind : EngineError → ErrorKind
  | general _ => .general
  | validation _ _ => .validation
  | notFound _ _ => .notFound
  | storage _ => .storage
  | storeUnavailable _ => .storeUnavailable
  | signature _ => .signature
  | configuration _ => .configuration

def message : EngineError → String
  | validation field detail => field ++ ": " ++ detail
  | notFound resource id => resource ++ " not found: " ++ id
  | general m | storage m | storeUnavailable m | signature m | configuration m => m

def ofSignature (e : SignatureError) : EngineError := .signature e.message

/-- The form in which an error is reported over HTTP. -/
def document (e : EngineError) : Json :=
  let details : List (String × Json) :=
    match e with
    | validation field _ => [("field", .str field)]
    | notFound resource id => [("resource_type", .str resource), ("resource_id", .str id)]
    | _ => []
  .obj [("error", .obj (("code", .str e.kind.code) :: details ++ [("message", .str e.message)]))]

end EngineError
end WebhookDelivery
