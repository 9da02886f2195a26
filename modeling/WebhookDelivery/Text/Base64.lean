import WebhookDelivery.Text.Hex

/-!
# WebhookDelivery.Text.Base64

Bytes in base 64. Reading is strict: every character must belong to the alphabet, padding stands
only at the end, and the text must end with a complete group. Padding after a complete group is
accepted, because the group needs none.
-/

namespace WebhookDelivery
namespace Text

inductive Base64Error where
  | notAscii
  | leadingPadding
  | excessData
  | badCharacter
  | discontinuousPadding
  | lonelyDigit (count : Nat)
  | incorrectPadding
  deriving DecidableEq, Repr

def Base64Error.message : Base64Error → String
  | .notAscii => "string argument should contain only ASCII characters"
  | .leadingPadding => "Leading padding not allowed"
  | .excessData => "Excess data after padding"
  | .badCharacter => "Only base64 data is allowed"
  | .discontinuousPadding => "Discontinuous padding not allowed"
  | .lonelyDigit count =>
    "Invalid base64-encoded string: number of data characters (" ++ toString count ++
      ") cannot be 1 more than a multiple of 4"
  | .incorrectPadding => "Incorrect padding"

def base64Value? (c : Char) : Option Nat :=
  if 'A' ≤ c ∧ c ≤ 'Z' then some (c.toNat - 65)
  else if 'a' ≤ c ∧ c ≤ 'z' then some (c.toNat - 71)
  else if '0' ≤ c ∧ c ≤ '9' then some (c.toNat + 4)
  else if c = '+' then some 62
  else if c = '/' then some 63
  else none

def base64Digit (n : Nat) : Char :=
  if n < 26 then Char.ofNat (65 + n)
  else if n < 52 then Char.ofNat (71 + n)
  else if n < 62 then Char.ofNat (n - 4)
  else if n = 62 then '+' else '/'

/-- A reader inside a text: `place` digits of the current group have been read, whose bits that
make no full byte yet are `left`; padding has begun where `padded`, and `pads` of it count toward
the group. `out` holds the bytes, last first. -/
structure Base64Reader where
  place : Nat
  left : Nat
  padded : Bool
  pads : Nat
  out : Bytes

def Base64Reader.start : Base64Reader := ⟨0, 0, false, 0, []⟩

/-- Takes one digit of value `v`. -/
def Base64Reader.push (r : Base64Reader) (v : Nat) : Base64Reader :=
  match r.place with
  | 0 => { r with place := 1, left := v }
  | 1 => { r with place := 2, left := v % 16, out := UInt8.ofNat (4 * r.left + v / 16) :: r.out }
  | 2 => { r with place := 3, left := v % 4, out := UInt8.ofNat (16 * r.left + v / 4) :: r.out }
  | _ => { r with place := 0, left := 0, out := UInt8.ofNat (64 * r.left + v) :: r.out }

/-- Reads the rest of a text. -/
def Base64Reader.finish (r : Base64Reader) : List Char → Except Base64Error Bytes
  | [] =>
    if r.place = 0 then .ok r.out.reverse
    else if r.place = 1 then .error (.lonelyDigit (r.out.length / 3 * 4 + 1))
    else .error .incorrectPadding
  | c :: rest =>
    if c = '=' then
      if r.place < 2 then finish { r with padded := true } rest
      else if r.place + (r.pads + 1) < 4 then
        finish { r with padded := true, pads := r.pads + 1 } rest
      else if rest.isEmpty then .ok r.out.reverse
      else .error .excessData
    else match base64Value? c with
      | none => .error .badCharacter
      | some v => if r.padded then .error .discontinuousPadding else (r.push v).finish rest

def base64Decode (s : List Char) : Except Base64Error Bytes :=
  if s.any fun c => 0x80 ≤ c.toNat then .error .notAscii
  else match s with
    | '=' :: _ => .error .leadingPadding
    | _ => Base64Reader.start.finish s

def base64Encode : Bytes → List Char
  | a :: b :: c :: rest =>
    base64Digit (a.toNat / 4) :: base64Digit (a.toNat % 4 * 16 + b.toNat / 16) ::
      base64Digit (b.toNat % 16 * 4 + c.toNat / 64) :: base64Digit (c.toNat % 64) ::
      base64Encode rest
  | [a, b] =>
    [base64Digit (a.toNat / 4), base64Digit (a.toNat % 4 * 16 + b.toNat / 16),
      base64Digit (b.toNat % 16 * 4), '=']
  | [a] => [base64Digit (a.toNat / 4), base64Digit (a.toNat % 4 * 16), '=', '=']
  | [] => []

end Text
end WebhookDelivery
