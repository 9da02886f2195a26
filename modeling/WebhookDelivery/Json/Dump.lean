import WebhookDelivery.Decimal
import WebhookDelivery.Json.Basic
import WebhookDelivery.Text.Quoted

/-!
# WebhookDelivery.Json.Dump

Writing a JSON document in ASCII, the form in which documents are kept in the columns of a table.
Every other character is escaped, one outside the basic plane as a surrogate pair. The given text
stands after each comma and each colon.
-/

namespace WebhookDelivery
namespace Json

/-- The escape of a unit of 16 bits. -/
def escapeUnit (n : Nat) : List Char := '\\' :: 'u' :: Text.hexDigits 4 n

/-- The letter by which a control character is escaped, where it has one. -/
def escapeLetter? (c : Char) : Option Char :=
  if c.toNat = 8 then some 'b'
  else if c.toNat = 9 then some 't'
  else if c.toNat = 10 then some 'n'
  else if c.toNat = 12 then some 'f'
  else if c.toNat = 13 then some 'r'
  else none

def dumpChar (c : Char) : List Char :=
  if c = '"' ∨ c = '\\' then ['\\', c]
  else if 0x20 ≤ c.toNat ∧ c.toNat < 0x7f then [c]
  else match escapeLetter? c with
    | some letter => ['\\', letter]
    | none =>
      if c.toNat < 0x10000 then escapeUnit c.toNat
      else
        let n := c.toNat - 0x10000
        escapeUnit (0xd800 + n / 1024) ++ escapeUnit (0xdc00 + n % 1024)

def dumpString (s : String) : List Char := '"' :: s.toList.flatMap dumpChar ++ ['"']

def dumpPoint : CodePoint → List Char
  | .char c => dumpChar c
  | .half n => escapeUnit (CodePoint.halfUnit n)

mutual

def dump (space : List Char) : Json → List Char
  | .null => "null".toList
  | .bool b => if b then "true".toList else "false".toList
  | .int i => (toString i).toList
  | .float x => (Decimal.write x).toList
  | .str s => dumpString s
  | .loose s => '"' :: s.flatMap dumpPoint ++ ['"']
  | .arr items => '[' :: dumpItems space items ++ [']']
  | .obj members => '{' :: dumpMembers space members ++ ['}']

def dumpItems (space : List Char) : List Json → List Char
  | [] => []
  | [item] => dump space item
  | item :: rest => dump space item ++ ',' :: space ++ dumpItems space rest

def dumpMembers (space : List Char) : List (String × Json) → List Char
  | [] => []
  | [(name, value)] => dumpString name ++ ':' :: space ++ dump space value
  | (name, value) :: rest =>
    dumpString name ++ ':' :: space ++ dump space value ++ ',' :: space ++ dumpMembers space rest

end

end Json
end WebhookDelivery
