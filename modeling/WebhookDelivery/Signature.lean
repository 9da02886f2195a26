import WebhookDelivery.Double
import WebhookDelivery.Entries
import WebhookDelivery.Integer
import WebhookDelivery.Sha256
import WebhookDelivery.Text.CaseMap
import WebhookDelivery.Text.Utf8

/-!
# WebhookDelivery.Signature

Signatures of deliveries. A signature names the second at which it was made, one or two digests,
and the headers that the second kind of digest covers:

    t=1636936200,v1=1b3d69df,h=x-event-id x-event-type

* `parse`, `toHeader`: the text of a signature read and written.
* `canonicalContent`: the bytes that a digest covers.
* `sign`, `verify`: the signature of a payload, and whether a signature belongs to one.
* `join_splitAt`: splitting a text at a mark loses nothing of it.
-/

namespace WebhookDelivery

/-- The covered headers are named in lower case; the digest `v0` covers the payload alone. -/
structure Signature where
  timestamp : Int
  v1 : Option Bytes
  v0 : Option Bytes
  headerNames : List String
  deriving DecidableEq, Repr

inductive SignatureError where
  | missingTimestamp
  | invalidTimestamp (text : String)
  | invalidDigest (field : String)
  | noDigest
  deriving DecidableEq, Repr

def SignatureError.message : SignatureError → String
  | .missingTimestamp => "Missing 't' field in signature"
  | .invalidTimestamp text => "Invalid timestamp in signature: " ++ Text.quoteString text
  | .invalidDigest field => "Invalid hex in '" ++ field ++ "' field"
  | .noDigest => "There must be at least one of 'v0' or 'v1' field"

namespace Signature

section Pieces

variable {α : Type}

/-- Texts with a separator between each two. -/
def join (separator : List α) : List (List α) → List α
  | [] => []
  | [s] => s
  | s :: rest => s ++ separator ++ join separator rest

variable [DecidableEq α]

/-- The pieces of a text between the occurrences of a mark. -/
def splitAt (mark : α) : List α → List (List α)
  | [] => [[]]
  | c :: rest =>
    if c = mark then [] :: splitAt mark rest
    else match splitAt mark rest with
      | piece :: pieces => (c :: piece) :: pieces
      | [] => [[c]]

/-- What stands before the first mark of a piece and what follows it, both trimmed. -/
def field? (mark : α) (trim : List α → List α) (piece : List α) : Option (List α × List α) :=
  match piece.dropWhile (· != mark) with
  | _ :: value => some (trim (piece.takeWhile (· != mark)), trim value)
  | [] => none

theorem splitAt_ne_nil (mark : α) (s : List α) : splitAt mark s ≠ [] := by
  cases s with
  | nil => simp [splitAt]
  | cons c rest =>
    simp only [splitAt]
    split
    · simp
    · split <;> simp

/-- The pieces of a text make it up again. -/
theorem join_splitAt (mark : α) (s : List α) : join [mark] (splitAt mark s) = s := by
  induction s with
  | nil => rfl
  | cons c rest ih =>
    cases hs : splitAt mark rest with
    | nil => exact absurd hs (splitAt_ne_nil mark rest)
    | cons piece pieces =>
      rw [hs] at ih
      simp only [splitAt, hs]
      split
      · rename_i hc
        simp [join, ih, hc]
      · cases pieces <;> simp_all [join]

end Pieces

/-- The fields of a signature, which stand between commas, by what stands before their first `=`. -/
def fields (s : List Char) : List (List Char × List Char) :=
  Entries.ofList ((splitAt ',' s).filterMap (field? '=' Text.trim))

def readDigest (fields : List (List Char × List Char)) (name : String) :
    Except SignatureError (Option Bytes) :=
  match Entries.get? fields name.toList with
  | none => .ok none
  | some text =>
    match Text.hexDecode? text with
    | some bytes => .ok (some bytes)
    | none => .error (.invalidDigest name)

def readNames (fields : List (List Char × List Char)) : List String :=
  let text := Text.lower (Text.trim ((Entries.get? fields ['h']).getD []))
  if text.isEmpty then [] else (splitAt ' ' text).map String.ofList

/-- Reads a signature. Of a field given twice the last counts; what has no `=` is skipped. -/
def parse (value : String) : Except SignatureError Signature :=
  let fields := fields value.toList
  match Entries.get? fields ['t'] with
  | none => .error .missingTimestamp
  | some text =>
    match Integer.read? text with
    | none => .error (.invalidTimestamp (String.ofList text))
    | some timestamp =>
      match readDigest fields "v0" with
      | .error e => .error e
      | .ok v0 =>
        match readDigest fields "v1" with
        | .error e => .error e
        | .ok v1 =>
          if v0.isNone && v1.isNone then .error .noDigest
          else .ok ⟨timestamp, v1, v0, readNames fields⟩

def toHeader (s : Signature) : String :=
  let names := s.headerNames.map String.toList
  String.ofList (join [','] (
    [['t', '='] ++ Integer.write s.timestamp] ++
    (s.v0.map fun digest => ['v', '0', '='] ++ Text.hexEncode digest).toList ++
    (s.v1.map fun digest => ['v', '1', '='] ++ Text.hexEncode digest).toList ++
    (if names.isEmpty then [] else [['h', '='] ++ join [' '] names])))

/-- The bytes that a digest covers: the timestamp, the names, the values and the payload, with
points between them. Without names it is the timestamp and the payload. -/
def canonicalContent (payload : Bytes) (timestamp : Int) (names values : List String) : Bytes :=
  let names := join [' '] (names.map String.toList)
  let timestamp := Text.utf8 (Integer.write timestamp)
  let point := Text.utf8 ['.']
  if names.isEmpty then timestamp ++ point ++ payload
  else
    timestamp ++ point ++ Text.utf8 names ++ point ++
      Text.utf8 (join ['.'] (values.map String.toList)) ++ point ++ payload

def computeDigest (secret : String) (content : Bytes) : Bytes :=
  Sha256.hmac (Text.utf8String secret) content

/-- Headers with their names in lower case; of equal names the first keeps its place and the last
gives the value. -/
def lowerNames (headers : List (String × String)) : List (String × String) :=
  Entries.ofList (headers.map fun h => (Text.lowerString h.1, h.2))

/-- The signature of a payload and of headers, all of which it covers. -/
def make (payload : Bytes) (timestamp : Int) (secret : String)
    (headers : List (String × String)) : Signature :=
  let signed := lowerNames headers
  let content := canonicalContent payload timestamp (signed.map (·.1)) (signed.map (·.2))
  ⟨timestamp, some (computeDigest secret content), none, signed.map (·.1)⟩

def sign (payload : Bytes) (timestamp : Int) (secret : String)
    (headers : List (String × String)) : String :=
  (make payload timestamp secret headers).toHeader

end Signature

/-- A reading of a clock in seconds. -/
inductive Seconds where
  | whole (n : Int)
  | real (x : Float)

/-- A whole number of seconds has no double-precision number near it. -/
inductive SecondsError where
  | overflow
  deriving DecidableEq, Repr

/-- The distance from a timestamp to a reading is more than a number of seconds. A reading that is
not whole is compared in double precision. -/
def Seconds.farFrom (now : Seconds) (timestamp tolerance : Int) : Except SecondsError Bool :=
  match now with
  | .whole n => .ok (tolerance < (n - timestamp).natAbs)
  | .real x =>
    match Double.ofInt? timestamp with
    | none => .error .overflow
    | some t => .ok (Double.compareInt? (x - t).abs tolerance == some .gt)

namespace Signature

/-- The content that a received signature claims to cover and the digest it gives for it; nothing
when a covered header has not been received. -/
def claimed? (s : Signature) (payload : Bytes) (headers : List (String × String)) :
    Option (Bytes × Bytes) :=
  match s.v1 with
  | some digest =>
    let received := lowerNames headers
    (s.headerNames.mapM (Entries.get? received)).map fun values =>
      (canonicalContent payload s.timestamp s.headerNames values, digest)
  | none => some (canonicalContent payload s.timestamp [] [], s.v0.getD [])

def matchesAny (s : Signature) (payload : Bytes) (secrets : List String)
    (headers : List (String × String)) : Bool :=
  match claimed? s payload headers with
  | none => false
  | some (content, digest) => secrets.any fun secret => computeDigest secret content == digest

/-- A signature is accepted if it can be read, is not older or newer than the tolerance allows, and
its digest is that of the received payload and headers under one of the secrets. -/
def verify (signature : String) (payload : Bytes) (secrets : List String)
    (headers : List (String × String)) (tolerance : Option Int) (now : Seconds) :
    Except SecondsError Bool :=
  match parse signature with
  | .error _ => .ok false
  | .ok s =>
    match tolerance with
    | none => .ok (s.matchesAny payload secrets headers)
    | some tolerance =>
      match now.farFrom s.timestamp tolerance with
      | .error e => .error e
      | .ok far => .ok (!far && s.matchesAny payload secrets headers)

def defaultTolerance : Int := 300

end Signature
end WebhookDelivery
