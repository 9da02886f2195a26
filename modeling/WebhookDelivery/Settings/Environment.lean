import WebhookDelivery.Entries
import WebhookDelivery.Json.Parser
import WebhookDelivery.Settings
import WebhookDelivery.Text.CaseMap

/-!
# WebhookDelivery.Settings.Environment

Settings from environment variables. A setting has the name `HOOK0_` and its field, in any case; a
field of a group is named after two underscores, and overrides the same field of the group given as
a whole in JSON. Settings that the program itself gives override both, field by field.
-/

namespace WebhookDelivery
namespace Environment

/-- Variables with their names in lower case; of equal names the last counts. -/
abbrev Variables := List (String × String)

def ofList (environment : List (String × String)) : Variables :=
  Entries.ofList (environment.map fun v => (Text.lowerString v.1, v.2))

/-- What stands in the environment for one field. -/
inductive Shape where
  | plain
  | json
  | group (fields : List (String × Shape))

def retryShape : Shape :=
  .group (["base_delay_seconds", "max_delay_seconds", "max_retries", "jitter_min",
    "jitter_max"].map fun name => (name, .plain))

def workerShape : Shape :=
  .group (["name", "version", "dedicated", "concurrency", "connect_timeout_seconds",
    "timeout_seconds", "claim_grace_seconds", "min_poll_seconds", "max_poll_seconds",
    "disable_target_ip_check", "signature_header_name", "signed_headers",
    "max_response_body_bytes"].map fun name =>
      (name, if name = "signed_headers" then .json else .plain))

def shapes : List (String × Shape) :=
  Settings.fieldNames.map fun name =>
    (name, if name = "retry" then retryShape else if name = "worker" then workerShape else .plain)

/-- The names in the order of the fields, in capital letters; those of the fields of a group stand
after that of the group. -/
def variableNames : List String :=
  (shapes.flatMap fun (field, shape) =>
    match shape with
    | .group fields => field :: fields.map fun f => field ++ "__" ++ f.1
    | _ => [field]).map fun name => "HOOK0_" ++ Text.upperString name

inductive LoadError where
  | notJson (field : String)
  | invalid (e : RecordError)

/-- A text between the occurrences of two underscores. -/
def splitNested : List Char → List (List Char)
  | [] => [[]]
  | '_' :: '_' :: rest => [] :: splitNested rest
  | c :: rest =>
    match splitNested rest with
    | piece :: pieces => (c :: piece) :: pieces
    | [] => [[c]]

/-- Puts a value at a path of names; what stands in the way of the path stays. -/
def putAt (value : Json) : (path : List String) → Json → Json
  | [], j => j
  | [name], .obj members => .obj (Entries.put members name value)
  | name :: path, .obj members =>
    .obj (Entries.put members name (putAt value path ((Entries.get? members name).getD (.obj []))))
  | _, j => j

/-- The shape at the end of a path inside a group. -/
def Shape.at? : (path : List String) → Shape → Option Shape
  | [], shape => some shape
  | name :: path, .group fields => (Entries.get? fields name).bind (Shape.at? path)
  | _ :: _, _ => none

def readJson (field : String) (text : String) : Except LoadError Json :=
  match Json.parse text.toList with
  | .ok j => .ok j
  | .error _ => .error (.notJson field)

/-- The value of a variable at a path inside a group. -/
def nestedValue (field : String) (shape : Shape) (path : List String) (text : String) :
    Except LoadError Json :=
  match shape.at? path with
  | some .plain | none => .ok (.str text)
  | some _ => if text.isEmpty then .ok (.str text) else readJson field text

/-- The fields of a group that have variables of their own. -/
def nested (environment : Variables) (field : String) (shape : Shape) : Except LoadError Json :=
  let start := ("hook0_" ++ field ++ "__").toList
  environment.foldlM (fun group v =>
    if start.isPrefixOf v.1.toList then
      let path := (splitNested (v.1.toList.drop start.length)).map String.ofList
      (nestedValue field shape path v.2).map fun value => putAt value path group
    else .ok group) (.obj [])

mutual

/-- A document in which the members of another override its own, groups member by member. -/
def override (j other : Json) : Json :=
  match j, other with
  | .obj members, .obj changes => .obj (overrideMembers members changes)
  | _, other => other

def overrideMembers (members : List (String × Json)) :
    (changes : List (String × Json)) → List (String × Json)
  | [] => members
  | (name, value) :: rest =>
    let value :=
      match Entries.get? members name with
      | some old => override old value
      | none => value
    overrideMembers (Entries.put members name value) rest

end

/-- The fields of a group by their own names, in whatever case the members are named. -/
def Shape.named (shape : Shape) (j : Json) : Json :=
  match shape, j with
  | .group fields, .obj members =>
    .obj (Entries.ofList (members.map fun m =>
      let name := Text.lowerString m.1
      (if Entries.contains fields name then name else m.1, m.2)))
  | _, j => j

/-- What the environment says of one field, if anything; a group that is given as null is not. -/
def fieldValue (environment : Variables) (field : String) (shape : Shape) :
    Except LoadError (Option Json) :=
  let whole := Entries.get? environment ("hook0_" ++ field)
  match shape with
  | .plain => .ok (whole.map .str)
  | _ =>
    match whole with
    | none =>
      (nested environment field shape).map fun group =>
        match group with
        | .obj [] => none
        | group => some group
    | some text =>
      match readJson field text with
      | .error e => .error e
      | .ok (.obj members) => (nested environment field shape).map fun group =>
        some (shape.named (override (.obj members) group))
      | .ok .null => .ok none
      | .ok j => .ok (some j)

/-- The settings that the environment gives, as a document. -/
def document (environment : Variables) : Except LoadError Json :=
  (shapes.foldlM (fun members (field : String × Shape) =>
    (fieldValue environment field.1 field.2).map fun value =>
      members ++ (value.map fun j => (field.1, j)).toList) []).map .obj

end Environment

/-- The settings of an environment, with those in `given` taking precedence. -/
def Settings.load (environment : List (String × String)) (given : Json) :
    Except Environment.LoadError Settings :=
  match Environment.document (Environment.ofList environment) with
  | .error e => .error e
  | .ok j =>
    match (Settings.read (Environment.override j given)).toExcept with
    | .ok settings => .ok settings
    | .error e => .error (.invalid e)

end WebhookDelivery
