import WebhookDelivery.Signature

/-!
# WebhookDelivery.Signature.Loose

Signatures of texts that need not be well formed. Secrets and the headers that are covered are signed
by their bytes, which a text with half of a surrogate pair does not have; everything else is done
with such texts as with others.

* `parse?`: the signature that a text is read as.
* `sign`, `verify`: the signature of a payload, and whether a signature belongs to one.
-/

namespace WebhookDelivery

/-- A signature whose covered headers have any names. -/
structure LooseSignature where
  timestamp : Int
  v1 : Option Bytes
  v0 : Option Bytes
  headerNames : List LooseText
  deriving DecidableEq, Repr

/-- What keeps a verification from being answered. -/
inductive VerificationError where
  | clock (e : SecondsError)
  | encoding (e : EncodingFault)
  deriving DecidableEq, Repr

namespace LooseSignature

open LooseText (ofChars ofString)
open Signature (splitAt join field?)

def fields (s : LooseText) : List (LooseText × LooseText) :=
  Entries.ofList ((splitAt (.char ',') s).filterMap (field? (.char '=') LooseText.trim))

/-- The digest in a field, if the field is there; nothing where it holds no digest. -/
def readDigest? (fields : List (LooseText × LooseText)) (name : String) : Option (Option Bytes) :=
  match Entries.get? fields (ofString name) with
  | none => some none
  | some text =>
    match text.chars?.bind Text.hexDecode? with
    | some digest => some (some digest)
    | none => none

def readNames (fields : List (LooseText × LooseText)) : List LooseText :=
  let text := LooseText.lower (LooseText.trim ((Entries.get? fields (ofString "h")).getD []))
  if text.isEmpty then [] else splitAt (.char ' ') text

/-- Reads a signature. A half of a surrogate pair is no digit, so that a number or a digest with one
cannot be read. -/
def parse? (value : LooseText) : Option LooseSignature :=
  let fields := fields value
  match (Entries.get? fields (ofString "t")).bind fun text =>
      text.chars?.bind Integer.read? with
  | none => none
  | some timestamp =>
    match readDigest? fields "v0", readDigest? fields "v1" with
    | some v0, some v1 =>
      if v0.isNone && v1.isNone then none else some ⟨timestamp, v1, v0, readNames fields⟩
    | _, _ => none

def toHeader (s : LooseSignature) : LooseText :=
  join [.char ','] (
    [ofChars (['t', '='] ++ Integer.write s.timestamp)] ++
    (s.v0.map fun digest => ofChars (['v', '0', '='] ++ Text.hexEncode digest)).toList ++
    (s.v1.map fun digest => ofChars (['v', '1', '='] ++ Text.hexEncode digest)).toList ++
    (if s.headerNames.isEmpty then []
      else [ofChars ['h', '='] ++ join [.char ' '] s.headerNames]))

/-- The bytes that a digest covers. The names are encoded before the values. -/
def canonicalContent (payload : Bytes) (timestamp : Int) (names values : List LooseText) :
    Except EncodingFault Bytes :=
  let names := join [.char ' '] names
  let timestamp := Text.utf8 (Integer.write timestamp)
  let point := Text.utf8 ['.']
  if names.isEmpty then .ok (timestamp ++ point ++ payload)
  else
    match LooseText.utf8 names with
    | .error e => .error e
    | .ok names =>
      match LooseText.utf8 (join [.char '.'] values) with
      | .error e => .error e
      | .ok values => .ok (timestamp ++ point ++ names ++ point ++ values ++ point ++ payload)

def computeDigest (secret : LooseText) (content : Bytes) : Except EncodingFault Bytes :=
  secret.utf8.map fun key => Sha256.hmac key content

def lowerNames (headers : List (LooseText × LooseText)) : List (LooseText × LooseText) :=
  Entries.ofList (headers.map fun h => (h.1.lower, h.2))

def sign (payload : Bytes) (timestamp : Int) (secret : LooseText)
    (headers : List (LooseText × LooseText)) : Except EncodingFault LooseText :=
  let signed := lowerNames headers
  match canonicalContent payload timestamp (signed.map (·.1)) (signed.map (·.2)) with
  | .error e => .error e
  | .ok content =>
    match computeDigest secret content with
    | .error e => .error e
    | .ok digest => .ok (toHeader ⟨timestamp, some digest, none, signed.map (·.1)⟩)

/-- The content that a received signature claims to cover and the digest it gives for it; nothing
when a covered header has not been received. -/
def claimed? (s : LooseSignature) (payload : Bytes) (headers : List (LooseText × LooseText)) :
    Option (Except EncodingFault Bytes × Bytes) :=
  match s.v1 with
  | some digest =>
    (s.headerNames.mapM (Entries.get? (lowerNames headers))).map fun values =>
      (canonicalContent payload s.timestamp s.headerNames values, digest)
  | none => some (canonicalContent payload s.timestamp [] [], s.v0.getD [])

/-- Every secret is tried, also after one has given the digest. -/
def matchesAny (s : LooseSignature) (payload : Bytes) (secrets : List LooseText)
    (headers : List (LooseText × LooseText)) : Except EncodingFault Bool :=
  match s.claimed? payload headers with
  | none => .ok false
  | some (.error e, _) => .error e
  | some (.ok content, digest) =>
    (secrets.mapM fun secret => computeDigest secret content).map fun digests =>
      digests.any (· == digest)

def verify (signature : LooseText) (payload : Bytes) (secrets : List LooseText)
    (headers : List (LooseText × LooseText)) (tolerance : Option Int) (now : Seconds) :
    Except VerificationError Bool :=
  match parse? signature with
  | none => .ok false
  | some s =>
    let far : Except SecondsError Bool :=
      match tolerance with
      | none => .ok false
      | some tolerance => now.farFrom s.timestamp tolerance
    match far with
    | .error e => .error (.clock e)
    | .ok true => .ok false
    | .ok false => (s.matchesAny payload secrets headers).mapError .encoding

end LooseSignature
end WebhookDelivery
