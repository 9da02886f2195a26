import WebhookDelivery.Text.Blank
import WebhookDelivery.Text.DecimalDigit

/-!
# WebhookDelivery.Integer

Integers in text: blanks around, a sign, and decimal digits of any script with single underscores
between them.
-/

namespace WebhookDelivery
namespace Integer

/-- The longest text of digits that is read as a number. -/
def maxDigits : Nat := 4300

/-- Blanks that may stand around a number: all but the information separators. -/
def isOuterBlank (c : Char) : Bool :=
  Text.isBlank c && !(0x1c ≤ c.toNat && c.toNat ≤ 0x1f)

/-- The value and number of the digits of a text, after `count` digits worth `value`. -/
def digitsAfter (value count : Nat) : List Char → Option (Nat × Nat)
  | [] => some (value, count)
  | '_' :: d :: rest =>
    match Text.digitValue? d with
    | some v => digitsAfter (10 * value + v) (count + 1) rest
    | none => none
  | c :: rest =>
    match Text.digitValue? c with
    | some v => digitsAfter (10 * value + v) (count + 1) rest
    | none => none

/-- The value of a text that begins and ends with a digit. -/
def readDigits? : List Char → Option Nat
  | [] => none
  | c :: rest =>
    match Text.digitValue? c with
    | some v =>
      match digitsAfter v 1 rest with
      | some (n, count) => if count ≤ maxDigits then some n else none
      | none => none
    | none => none

def readSigned? : List Char → Option Int
  | '-' :: rest => (readDigits? rest).map fun n => -(n : Int)
  | '+' :: rest => (readDigits? rest).map fun n => (n : Int)
  | s => (readDigits? s).map fun n => (n : Int)

def read? (s : List Char) : Option Int := readSigned? (Text.trimBy isOuterBlank s)

def write (i : Int) : List Char :=
  if i < 0 then '-' :: Nat.toDigits 10 i.natAbs else Nat.toDigits 10 i.natAbs

end Integer
end WebhookDelivery
