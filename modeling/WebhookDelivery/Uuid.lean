import WebhookDelivery.Text.Hex

/-!
# WebhookDelivery.Uuid

Identifiers of 128 bits, written as 32 lower-case hexadecimal digits in five groups. Their order is
that of their texts.
-/

namespace WebhookDelivery

structure Uuid where
  bits : BitVec 128
  deriving DecidableEq, Repr

namespace Uuid

def ofNat (n : Nat) : Uuid := ⟨BitVec.ofNat 128 n⟩

instance : Inhabited Uuid := ⟨ofNat 0⟩

def lt (a b : Uuid) : Bool := a.bits.toNat < b.bits.toNat

def le (a b : Uuid) : Bool := a.bits.toNat ≤ b.bits.toNat

/-- The hexadecimal digits cut into groups of the given lengths. -/
def group (s : List Char) : (lengths : List Nat) → List Char
  | [] => []
  | [n] => s.take n
  | n :: lengths => s.take n ++ '-' :: group (s.drop n) lengths

def toList (u : Uuid) : List Char := group (Text.hexDigits 32 u.bits.toNat) [8, 4, 4, 4, 12]

def write (u : Uuid) : String := String.ofList u.toList

def readDigits? (s : List Char) : Option Uuid :=
  if s.length = 32 then
    (s.foldlM (fun n c => (Text.hexValue? c).map (16 * n + ·)) 0).map ofNat
  else none

/-- Five groups with hyphens between them. -/
def readGroups? (s : List Char) : Option Uuid :=
  if s.length = 36 ∧ s[8]? = some '-' ∧ s[13]? = some '-' ∧ s[18]? = some '-' ∧ s[23]? = some '-' then
    readDigits? (s.filter (· != '-'))
  else none

/-- The digits alone, or in groups; in groups also between braces or after `urn:uuid:`. -/
def read? (s : List Char) : Option Uuid :=
  if s.length = 32 then readDigits? s
  else if s.length = 36 then readGroups? s
  else if s.length = 38 ∧ s.head? = some '\x7b' ∧ s.getLast? = some '\x7d' then
    readGroups? (s.drop 1).dropLast
  else if s.length = 45 ∧ "urn:uuid:".toList.isPrefixOf s then readGroups? (s.drop 9)
  else none

end Uuid
end WebhookDelivery
