import WebhookDelivery.Delivery.Idna
import WebhookDelivery.Integer
import WebhookDelivery.Text.CaseMap

/-!
# WebhookDelivery.Delivery.Url

The parts of a target URL that decide whether and where a delivery may be sent.

    scheme : // userinfo @ host : port / path ? query # fragment

Every part may be missing. The scheme and the host are given in lower case, a port that is the
scheme's own is left out, a host that looks like an address must be one, and a host outside ASCII is
given in ASCII.

* `Url.split`: the parts as they are written.
* `Url.parse`: the URL of a text, or why it has none.
* `Url.hostName`: the name that the host stands for.
-/

namespace WebhookDelivery

structure Url where
  scheme : String
  userinfo : String
  host : String
  port : Option Int
  path : String
  deriving DecidableEq, Repr

inductive UrlError where
  | tooLong
  | unprintable (c : Char) (position : Nat)
  | badV4 (host : String)
  | badV6 (host : String)
  | badName (host : String)
  | badPort (port : String)
  | pathWithoutSlash
  | pathLikeAuthority
  | pathLikeScheme
  deriving DecidableEq, Repr

def UrlError.message : UrlError → String
  | .tooLong => "URL too long"
  | .unprintable c position =>
    "Invalid non-printable ASCII character in URL, " ++ Text.quoteString (String.ofList [c]) ++
      " at position " ++ toString position ++ "."
  | .badV4 host => "Invalid IPv4 address: " ++ Text.quoteString host
  | .badV6 host => "Invalid IPv6 address: " ++ Text.quoteString host
  | .badName host => "Invalid IDNA hostname: " ++ Text.quoteString host
  | .badPort port => "Invalid port: " ++ Text.quoteString port
  | .pathWithoutSlash => "For absolute URLs, path must be empty or begin with '/'"
  | .pathLikeAuthority => "Relative URLs cannot have a path starting with '//'"
  | .pathLikeScheme => "Relative URLs cannot have a path starting with ':'"

namespace Url

def maxLength : Nat := 65536

def isUnprintable (c : Char) : Bool := c.toNat < 0x20 || c.toNat = 0x7f

def isAsciiLetter (c : Char) : Bool := ('a' ≤ c && c ≤ 'z') || ('A' ≤ c && c ≤ 'Z')

def isAsciiDigit (c : Char) : Bool := '0' ≤ c && c ≤ '9'

def isSchemeChar (c : Char) : Bool :=
  isAsciiLetter c || isAsciiDigit c || c = '+' || c = '.' || c = '-'

/-- The scheme as written, and what follows its colon. It may be empty. -/
def splitScheme (s : List Char) : List Char × List Char :=
  let scheme :=
    match s with
    | c :: _ => if isAsciiLetter c then s.takeWhile isSchemeChar else []
    | [] => []
  match s.drop scheme.length with
  | ':' :: rest => (scheme, rest)
  | _ => ([], s)

/-- The authority without its slashes, and what follows it. -/
def splitAuthority : List Char → List Char × List Char
  | '/' :: '/' :: rest =>
    let ends := fun c : Char => c != '/' && c != '?' && c != '#'
    (rest.takeWhile ends, rest.dropWhile ends)
  | s => ([], s)

/-- A host between brackets ends with the last closing one; any other host ends with the first colon
or at-sign. -/
def splitHost (s : List Char) : List Char × List Char :=
  let plain := (s.takeWhile fun c => c != ':' && c != '@', s.dropWhile fun c => c != ':' && c != '@')
  match s with
  | '[' :: _ =>
    match Text.splitLast? ']' s with
    | some (before, after) => (before ++ [']'], after)
    | none => plain
  | _ => plain

/-- The text after a host, less the colon before a port. -/
def portText : List Char → List Char
  | ':' :: rest => rest
  | s => s

def schemePort? (scheme : List Char) : Option Int :=
  match String.ofList scheme with
  | "ftp" => some 21
  | "http" => some 80
  | "https" => some 443
  | "ws" => some 80
  | "wss" => some 443
  | _ => none

/-- The port, unless it is that of a scheme written in lower case. -/
def readPort (scheme text : List Char) : Except UrlError (Option Int) :=
  if text.isEmpty then .ok none
  else match Integer.read? text with
    | none => .error (.badPort (String.ofList text))
    | some n => .ok (if schemePort? scheme = some n then none else some n)

def isUnreserved (c : Char) : Bool :=
  isAsciiLetter c || isAsciiDigit c || c = '-' || c = '.' || c = '_' || c = '~'

/-- Characters that stand for themselves in a host name. -/
def isHostChar (c : Char) : Bool :=
  isUnreserved c || "!$&'()*+,;=\"`\x7b\x7d%|\\".toList.contains c

/-- A character by its bytes in UTF-8, in capital hexadecimal digits after percent signs. -/
def percentEncode (c : Char) : List Char :=
  (Text.utf8 [c]).flatMap fun b => '%' :: (Text.hexDigits 2 b.toNat).map Char.toUpper

def looksLikeV4 (s : List Char) : Bool :=
  let parts := Address.split '.' s
  parts.length = 4 && parts.all fun part => !part.isEmpty && part.all isAsciiDigit

def readHost (rules : LabelRules) (s : List Char) : Except UrlError (List Char) :=
  if looksLikeV4 s then
    if (Address.readV4? s).isSome then .ok s else .error (.badV4 (String.ofList s))
  else match s with
    | '[' :: inner =>
      if s.getLast? = some ']' ∧ 1 < s.length then
        if (Address.readV6? inner.dropLast).isSome then .ok inner.dropLast
        else .error (.badV6 (String.ofList s))
      else readName s
    | _ => readName s
where
  readName (s : List Char) : Except UrlError (List Char) :=
    if Text.isAscii s then
      .ok ((s.map Char.toLower).flatMap fun c => if isHostChar c then [c] else percentEncode c)
    else match Idna.encode rules (Text.lower s) with
      | .error _ => .error (.badName (String.ofList s))
      | .ok name => .ok name

def checkPath (scheme : List Char) (hasAuthority : Bool) (path : List Char) : Except UrlError Unit :=
  if hasAuthority then
    if path.isEmpty ∨ path.head? = some '/' then .ok () else .error .pathWithoutSlash
  else if scheme.isEmpty then
    match path with
    | '/' :: '/' :: _ => .error .pathLikeAuthority
    | ':' :: _ => .error .pathLikeScheme
    | _ => .ok ()
  else .ok ()

/-- The parts of a URL as they are written. -/
structure Parts where
  scheme : List Char
  userinfo : List Char
  host : List Char
  port : List Char
  path : List Char

def split (s : List Char) : Parts :=
  let (scheme, rest) := splitScheme s
  let (authority, rest) := splitAuthority rest
  let (userinfo, hostAndPort) := (Text.splitLast? '@' authority).getD ([], authority)
  let (host, afterHost) := splitHost hostAndPort
  { scheme := scheme, userinfo := userinfo, host := host, port := portText afterHost,
    path := rest.takeWhile fun c => c != '?' && c != '#' }

def ofParts (rules : LabelRules) (p : Parts) : Except UrlError Url :=
  match readHost rules p.host with
  | .error e => .error e
  | .ok host =>
    match readPort p.scheme p.port with
    | .error e => .error e
    | .ok port =>
      let hasAuthority := !p.userinfo.isEmpty || !host.isEmpty || port.isSome
      match checkPath p.scheme hasAuthority p.path with
      | .error e => .error e
      | .ok () => .ok {
          scheme := String.ofList (p.scheme.map Char.toLower), userinfo := String.ofList p.userinfo,
          host := String.ofList host, port := port, path := String.ofList p.path }

def parse (rules : LabelRules) (text : String) : Except UrlError Url :=
  let s := text.toList
  if maxLength < s.length then .error .tooLong
  else match s.zipIdx.find? fun p => isUnprintable p.1 with
    | some (c, position) => .error (.unprintable c position)
    | none => ofParts rules (split s)

/-- The name that the host stands for. Only a name whose first label is in Punycode is decoded. -/
def hostName (rules : LabelRules) (u : Url) : Except IdnaError String :=
  if Idna.encodedMark.isPrefixOf u.host.toList then
    (Idna.decode rules u.host.toList).map String.ofList
  else .ok u.host

/-- Percent-encoded bytes decoded, invalid UTF-8 replaced. -/
def percentDecode (s : List Char) : List Char := Text.utf8Lossy (bytes s)
where
  bytes : List Char → Bytes
    | '%' :: a :: b :: rest =>
      match Text.hexValue? a, Text.hexValue? b with
      | some high, some low => UInt8.ofNat (16 * high + low) :: bytes rest
      | _, _ => Text.utf8 ['%'] ++ bytes (a :: b :: rest)
    | c :: rest => Text.utf8 [c] ++ bytes rest
    | [] => []

/-- The user name and password that the text of a URL carries, if it carries either. -/
def credentials? (text : String) : Option (List Char × List Char) :=
  let s := (split text.toList).userinfo
  let user := percentDecode (s.takeWhile (· != ':'))
  let password := percentDecode ((s.dropWhile (· != ':')).drop 1)
  if user.isEmpty && password.isEmpty then none else some (user, password)

end Url
end WebhookDelivery
