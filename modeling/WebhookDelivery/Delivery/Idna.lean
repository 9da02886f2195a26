import WebhookDelivery.Delivery.Address
import WebhookDelivery.Text.Punycode

/-!
# WebhookDelivery.Delivery.Idna

Host names with characters outside ASCII. A label of such a name is written in ASCII as `xn--` with
its Punycode after it.

* `Idna.encode`: the name in ASCII.
* `Idna.decode`: the name that a name in ASCII stands for.

Which texts outside ASCII are labels is told by tables of Unicode that are not part of this library:
`LabelRules` stands for them.
-/

namespace WebhookDelivery

/-- Why a text is no host name: in general, for the directions of its characters, for a character
that no label has, or for one that is not allowed where it stands. -/
inductive IdnaError where
  | general
  | directions
  | character
  | context
  deriving DecidableEq, Repr

/-- Judges a label outside ASCII: that its characters are composed, the first of them combines with
none before it, and each is one that labels have, in the place and the direction in which it stands. -/
abbrev LabelRules := LooseText → Except IdnaError Unit

/-- No label outside ASCII is allowed. -/
def LabelRules.asciiOnly : LabelRules := fun _ => .error .character

namespace Idna

def maxLabelLength : Nat := 63

/-- A name may be as long as this, or longer by a full stop at its end. -/
def maxLength : Nat := 253

/-- What a label in Punycode begins with. -/
def encodedMark : List Char := ['x', 'n', '-', '-']

/-- The full stop, and those of East Asian texts. -/
def isDot (c : Char) : Bool :=
  c = '.' || c.toNat = 0x3002 || c.toNat = 0xff0e || c.toNat = 0xff61

/-- A character that a label in ASCII may have. -/
def isLabelChar (c : Char) : Bool := ('a' ≤ c && c ≤ 'z') || ('0' ≤ c && c ≤ '9') || c = '-'

/-- No label begins or ends with a hyphen, or has hyphens as its third and fourth character. -/
def hasMisplacedHyphen (s : LooseText) : Bool :=
  let hyphen := CodePoint.char '-'
  s.head? = some hyphen || s.getLast? = some hyphen || (s.drop 2).take 2 = [hyphen, hyphen]

def checkLabel (rules : LabelRules) (s : LooseText) : Except IdnaError Unit :=
  if s.isEmpty || maxLength + 1 < s.length || hasMisplacedHyphen s then .error .general
  else if s.all fun c => c.char?.any isLabelChar then .ok ()
  else if s.all fun c => c.char?.any fun c => c.toNat < 0x80 then .error .character
  else rules s

/-- The label that a label in ASCII stands for. Capital letters count as small ones. -/
def decodeLabel (rules : LabelRules) (s : List Char) : Except IdnaError LooseText :=
  let s := s.map Char.toLower
  if encodedMark.isPrefixOf s then
    let code := s.drop encodedMark.length
    if code.isEmpty || code.getLast? = some '-' then .error .general
    else match Punycode.decode? code with
      | none => .error .general
      | some label => (checkLabel rules label).map fun () => label
  else (checkLabel rules (.ofChars s)).map fun () => .ofChars s

/-- The label in ASCII. -/
def encodeLabel (rules : LabelRules) (s : List Char) : Except IdnaError (List Char) :=
  let checked :=
    if Text.isAscii s then (decodeLabel rules s).map fun _ => s
    else (checkLabel rules (.ofChars s)).map fun () => encodedMark ++ Punycode.encode s
  match checked with
  | .error e => .error e
  | .ok label => if maxLabelLength < label.length then .error .general else .ok label

/-- A name with each of its labels replaced, and whether a full stop ends it. -/
def mapLabels (f : List Char → Except IdnaError (List Char)) (s : List Char) :
    Except IdnaError (List Char × Bool) :=
  if s.isEmpty || maxLength + 1 < s.length then .error .general
  else
    let pieces := Address.split '.' (s.map fun c => if isDot c then '.' else c)
    let endsInDot := pieces.getLast? = some []
    match (if endsInDot then pieces.dropLast else pieces).mapM f with
    | .error e => .error e
    | .ok labels => .ok (['.'].intercalate (labels ++ if endsInDot then [[]] else []), endsInDot)

def encode (rules : LabelRules) (s : List Char) : Except IdnaError (List Char) :=
  match mapLabels (encodeLabel rules) s with
  | .error e => .error e
  | .ok (name, endsInDot) =>
    if (if endsInDot then maxLength + 1 else maxLength) < name.length then .error .general
    else .ok name

/-- The name that a name stands for. A label has no half of a surrogate pair, whatever the rules. -/
def decode (rules : LabelRules) (s : List Char) : Except IdnaError (List Char) :=
  (mapLabels decoded s).map (·.1)
where
  decoded (label : List Char) : Except IdnaError (List Char) :=
    match decodeLabel rules label with
    | .error e => .error e
    | .ok text =>
      match text.chars? with
      | none => .error .character
      | some chars => .ok chars

end Idna
end WebhookDelivery
