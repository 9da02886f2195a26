import WebhookDelivery.Signature

/-!
# WebhookDelivery.Delivery.Header

Blocks of HTTP header fields. Names compare without regard to ASCII case. A block keeps its fields
as bytes; once it has been searched, it has an encoding, the first of ASCII, UTF-8 and Latin-1 that
reads all its fields, and what is put into it later must be expressible in that encoding.
-/

namespace WebhookDelivery

inductive HeaderEncoding where
  | ascii
  | utf8
  | latin1
  deriving DecidableEq, Repr

inductive HeaderError where
  | notEncodable
  deriving DecidableEq, Repr

namespace HeaderEncoding

def encode (e : HeaderEncoding) (s : List Char) : Except HeaderError Bytes :=
  match e with
  | ascii => if Text.isAscii s then .ok (Text.utf8 s) else .error .notEncodable
  | utf8 => .ok (Text.utf8 s)
  | latin1 =>
    if s.all fun c => c.toNat < 0x100 then .ok (s.map fun c => UInt8.ofNat c.toNat)
    else .error .notEncodable

def decode? (e : HeaderEncoding) (bs : Bytes) : Option (List Char) :=
  match e with
  | ascii => if bs.all (· < 0x80) then Text.utf8Decode? bs else none
  | utf8 => Text.utf8Decode? bs
  | latin1 => some (bs.map fun b => Char.ofNat b.toNat)

end HeaderEncoding

structure HeaderField where
  name : Bytes
  value : Bytes
  deriving DecidableEq, Repr

def asciiLower (bs : Bytes) : Bytes :=
  bs.map fun b => if 0x41 ≤ b ∧ b ≤ 0x5a then b + 0x20 else b

/-- The name by which a field is found. -/
def HeaderField.key (f : HeaderField) : Bytes := asciiLower f.name

structure HeaderBlock where
  fields : List HeaderField
  encoding : Option HeaderEncoding
  deriving DecidableEq, Repr

namespace HeaderBlock

/-- A block of fields given in ASCII. -/
def ofAscii (fields : List (String × String)) : Except HeaderError HeaderBlock :=
  (fields.mapM fun (f : String × String) =>
    match HeaderEncoding.ascii.encode f.1.toList, HeaderEncoding.ascii.encode f.2.toList with
    | .ok name, .ok value => Except.ok (HeaderField.mk name value)
    | _, _ => .error HeaderError.notEncodable).map fun fields => ⟨fields, none⟩

def readableIn (e : HeaderEncoding) (b : HeaderBlock) : Bool :=
  b.fields.all fun f => (e.decode? f.name).isSome && (e.decode? f.value).isSome

/-- The encoding of a block that is searched. -/
def encodingOf (b : HeaderBlock) : HeaderEncoding :=
  match b.encoding with
  | some e => e
  | none => if b.readableIn .ascii then .ascii else if b.readableIn .utf8 then .utf8 else .latin1

/-- A block with its encoding settled. -/
def settle (b : HeaderBlock) : HeaderBlock := { b with encoding := some b.encodingOf }

/-- The key that a name has in a block. -/
def keyOf (b : HeaderBlock) (name : String) : Except HeaderError Bytes :=
  b.encodingOf.encode (Text.lower name.toList)

/-- The values of all fields of a name, joined by commas; nothing where there is none. -/
def get? (b : HeaderBlock) (name : String) : Except HeaderError (Option String) :=
  match b.keyOf name with
  | .error e => .error e
  | .ok key =>
    let values := (b.fields.filter (·.key == key)).map fun f =>
      (b.encodingOf.decode? f.value).getD []
    .ok (if values.isEmpty then none else some (String.ofList (Signature.join [',', ' '] values)))

/-- Puts a field in the place of the first of its name and drops the others of that name. -/
def replaceFirst (field : HeaderField) : List HeaderField → Option (List HeaderField)
  | [] => none
  | f :: rest =>
    if f.key = field.key then some (field :: rest.filter (·.key != field.key))
    else (replaceFirst field rest).map (f :: ·)

/-- A name that is present keeps its place; a new field goes to the end. -/
def put (b : HeaderBlock) (name value : String) : Except HeaderError HeaderBlock :=
  let encoding := b.encoding.getD .utf8
  match encoding.encode name.toList, encoding.encode value.toList with
  | .ok name, .ok value =>
    let field : HeaderField := ⟨name, value⟩
    .ok { b with fields := (replaceFirst field b.fields).getD (b.fields ++ [field]) }
  | _, _ => .error .notEncodable

/-- The names in lower case with their values; the values of a repeated name are joined. -/
def toEntries (b : HeaderBlock) : List (String × String) :=
  let text := fun bs => (b.encodingOf.decode? bs).getD []
  b.fields.foldl (fun entries f =>
    let name := String.ofList (text f.key)
    let value := String.ofList (text f.value)
    Entries.put entries name
      (match Entries.get? entries name with
        | some first => first ++ ", " ++ value
        | none => value)) []

end HeaderBlock
end WebhookDelivery
