import WebhookDelivery.Text.Utf8

/-!
# WebhookDelivery.Text.Encoding

Texts in bytes whose encoding is not told: it is that of the mark at the beginning, or else the one
that the zero bytes of the first character, an ASCII one, give away.
-/

namespace WebhookDelivery
namespace Text

inductive Encoding where
  | utf8
  | utf16 (bigEndian : Bool)
  | utf32 (bigEndian : Bool)
  deriving DecidableEq, Repr

/-- The encoding of a text without a mark. -/
def guessEncoding : Bytes → Encoding
  | 0 :: 0 :: _ :: _ :: _ => .utf32 true
  | 0 :: _ :: _ :: _ :: _ => .utf16 true
  | _ :: 0 :: 0 :: 0 :: _ => .utf32 false
  | _ :: 0 :: _ :: _ :: _ => .utf16 false
  | [0, _] => .utf16 true
  | [_, 0] => .utf16 false
  | _ => .utf8

/-- The encoding of a text, and its bytes without the mark. -/
def detectEncoding : Bytes → Encoding × Bytes
  | 0x00 :: 0x00 :: 0xfe :: 0xff :: rest => (.utf32 true, rest)
  | 0xff :: 0xfe :: 0x00 :: 0x00 :: rest => (.utf32 false, rest)
  | 0xfe :: 0xff :: rest => (.utf16 true, rest)
  | 0xff :: 0xfe :: rest => (.utf16 false, rest)
  | 0xef :: 0xbb :: 0xbf :: rest => (.utf8, rest)
  | bs => (guessEncoding bs, bs)

/-- Pairs of bytes as numbers; nothing where one byte is left over. -/
def units16? (bigEndian : Bool) : Bytes → Option (List Nat)
  | [] => some []
  | a :: b :: rest =>
    (units16? bigEndian rest).map
      ((if bigEndian then 256 * a.toNat + b.toNat else 256 * b.toNat + a.toNat) :: ·)
  | [_] => none

def charOf? (n : Nat) : Option Char := if n.isValidChar then some (Char.ofNat n) else none

def decodeUnits16? : List Nat → Option (List Char)
  | [] => some []
  | [a] => (charOf? a).map ([·])
  | a :: b :: rest =>
    if 0xd800 ≤ a ∧ a < 0xdc00 ∧ 0xdc00 ≤ b ∧ b < 0xe000 then
      (decodeUnits16? rest).map (Char.ofNat (0x10000 + (a - 0xd800) * 0x400 + (b - 0xdc00)) :: ·)
    else match charOf? a with
      | some c => (decodeUnits16? (b :: rest)).map (c :: ·)
      | none => none

def decodeUnits32? (bigEndian : Bool) : List Nat → Option (List Char)
  | [] => some []
  | a :: b :: rest =>
    match charOf? (if bigEndian then 65536 * a + b else 65536 * b + a) with
    | some c => (decodeUnits32? bigEndian rest).map (c :: ·)
    | none => none
  | [_] => none

def decodeIn? : Encoding → Bytes → Option (List Char)
  | .utf8, bs => utf8Decode? bs
  | .utf16 bigEndian, bs => (units16? bigEndian bs).bind decodeUnits16?
  | .utf32 bigEndian, bs => (units16? bigEndian bs).bind (decodeUnits32? bigEndian)

/-- The text in bytes of an encoding that is not told. -/
def decodeDetected? (bs : Bytes) : Option (List Char) :=
  let (encoding, bs) := detectEncoding bs
  decodeIn? encoding bs

end Text
end WebhookDelivery
