import WebhookDelivery.Double
import WebhookDelivery.Json.Basic
import WebhookDelivery.Text.Hex
import WebhookDelivery.Text.Utf8
import WebhookDelivery.Uuid

/-!
# WebhookDelivery.Json.Decode

Taking the parts of a document whose form is known. A document of another form is a mistake of
whoever wrote it, and the first one found is reported as a text; records that come from outside are
read by a `Reader`, which finds every fault.
-/

namespace WebhookDelivery

/-- A decoded value, or what is wrong with the document. -/
abbrev Decoded := Except String

class Decode (α : Type) where
  decode : Json → Decoded α

export Decode (decode)

instance : Decode Json := ⟨.ok⟩

instance : Decode String where
  decode
    | .str s => .ok s
    | _ => .error "not a text"

instance : Decode LooseText where
  decode
    | .str s => .ok (.ofString s)
    | .loose s => .ok s
    | _ => .error "not a text"

instance : Decode Int where
  decode
    | .int i => .ok i
    | _ => .error "not an integer"

instance : Decode Nat where
  decode
    | .int (.ofNat n) => .ok n
    | _ => .error "not a natural number"

instance : Decode Bool where
  decode
    | .bool b => .ok b
    | _ => .error "not a truth value"

/-- An integer stands for the number nearest to it. -/
instance : Decode Float where
  decode
    | .float x => .ok x
    | .int i =>
      match Double.ofInt? i with
      | some x => .ok x
      | none => .error "too large"
    | _ => .error "not a number"

instance : Decode Uuid where
  decode
    | .str s =>
      match Uuid.read? s.toList with
      | some u => .ok u
      | none => .error "not an identifier"
    | _ => .error "not an identifier"

instance {α : Type} [Decode α] : Decode (List α) where
  decode
    | .arr items => items.mapM decode
    | _ => .error "not a list"

instance {α β : Type} [Decode α] [Decode β] : Decode (α × β) where
  decode
    | .arr [x, y] =>
      match decode x, decode y with
      | .ok x, .ok y => .ok (x, y)
      | .error e, _ | _, .error e => .error e
    | _ => .error "not a pair"

/-- The members of an object. -/
structure Members (α : Type) where
  entries : List (String × α)

instance {α : Type} [Decode α] : Decode (Members α) where
  decode
    | .obj members =>
      (members.mapM fun m => (decode m.2).map fun x => (m.1, x)).map Members.mk
    | _ => .error "not an object"

namespace Json

/-- The member of a name that is there and not null. -/
def present? (j : Json) (name : String) : Option Json :=
  match j.member? name with
  | some .null => none
  | other => other

variable {α : Type} [Decode α]

/-- The member of a name, or nothing where it is absent or null. -/
def get? (j : Json) (name : String) : Decoded (Option α) :=
  match j.present? name with
  | none => .ok none
  | some x => (decode x).map some

def get (j : Json) (name : String) : Decoded α :=
  match j.present? name with
  | none => .error ("no " ++ name)
  | some x => decode x

/-- The member of a name, or a value that stands in for it. -/
def getD (j : Json) (name : String) (standIn : α) : Decoded α :=
  (j.get? name).map (·.getD standIn)

/-- Bytes are a text, for its UTF-8, or an object with hexadecimal digits under `hex`, or one with
a piece and a number under `repeat`. -/
def toBytes : Json → Decoded Bytes
  | .str s => .ok (Text.utf8String s)
  | .obj [("hex", .str s)] =>
    match Text.hexDecode? s.toList with
    | some bytes => .ok bytes
    | none => .error "not hexadecimal"
  | .obj [("repeat", .arr [piece, .int (.ofNat count)])] =>
    (toBytes piece).map fun bytes => (List.replicate count bytes).flatten
  | _ => .error "not bytes"

instance : Decode Bytes := ⟨toBytes⟩

end Json
end WebhookDelivery
