import WebhookDelivery.Json.Parser
import WebhookDelivery.Text.CaseMap
import WebhookDelivery.Text.Encoding
import WebhookDelivery.Validation

/-!
# WebhookDelivery.Api.Message

The requests that reach the HTTP interface and the answers that it gives, and the reading of the
parts of a request. Only a body of a JSON type is read as a document.
-/

namespace WebhookDelivery

/-- A request; its path is that below the root of the interface. -/
structure ApiRequest where
  method : String
  path : String
  query : List (String × String)
  contentType : Option String
  body : Bytes
  deriving DecidableEq, Repr

inductive ApiContent where
  | document (j : Json)
  | text (s : String)
  | faults (fs : List LocatedFault)

structure ApiAnswer where
  status : Nat
  content : ApiContent

namespace ApiAnswer

/-- An answer that consists of a remark. -/
def remark (status : Nat) (detail : String) : ApiAnswer :=
  ⟨status, .document (.obj [("detail", .str detail)])⟩

def unprocessable (faults : List LocatedFault) : ApiAnswer := ⟨422, .faults faults⟩

end ApiAnswer

namespace ApiRequest

/-- The two parts of a media type, in lower case. -/
def mediaType (s : List Char) : List Char × List Char :=
  let name := Text.trim (Text.lower (s.takeWhile (· != ';')))
  if name.count '/' = 1 then (name.takeWhile (· != '/'), (name.dropWhile (· != '/')).drop 1)
  else ("text".toList, "plain".toList)

def isJsonType (s : String) : Bool :=
  let (main, sub) := mediaType s.toList
  main == "application".toList && (sub == "json".toList || "+json".toList.isSuffixOf sub)

/-- The document in the body, if there is a body. One that is no document, although its type says
so, is answered at once; one of another type stands for a text. -/
def readBody (r : ApiRequest) : Except ApiAnswer (Option Json) :=
  let unreadable := ApiAnswer.remark 400 "There was an error parsing the body"
  if r.body.isEmpty then .ok none
  else if !r.contentType.any isJsonType then .ok (some (.str ""))
  else match Text.decodeDetected? r.body with
    | none => .error unreadable
    | some text =>
      match Json.parse text with
      | .ok j => .ok (some j)
      | .error .tooManyDigits => .error unreadable
      | .error (.unexpected position) =>
        .error (.unprocessable [⟨[.member "body", .item position], .jsonInvalid⟩])

/-- A record in the body. -/
def bodyRecord {α : Type} (read : Reader α) (body : Option Json) : Validated α :=
  let x : Validated α :=
    match body with
    | none => .fail .missing
    | some (.obj members) => read (.obj members)
    | some _ => .fail .attributesType
  x.below (.member "body")

/-- The parameters of the query; of a repeated name the last counts. -/
def parameters (r : ApiRequest) : List (String × Json) :=
  r.query.reverse.map fun p => (p.1, .str p.2)

def parameter {α : Type} (r : ApiRequest) (name : String) (read : Reader α) : Validated α :=
  (Reader.required r.parameters name read).below (.member "query")

def parameterOr {α : Type} (r : ApiRequest) (name : String) (standIn : α) (read : Reader α) :
    Validated α :=
  (Reader.withDefault r.parameters name standIn read).below (.member "query")

def pathUuid (name text : String) : Validated Uuid :=
  ((Reader.uuid (.str text)).below (.member name)).below (.member "path")

end ApiRequest
end WebhookDelivery
