import WebhookDelivery.Json.Basic
import WebhookDelivery.Decimal
import WebhookDelivery.Text.Quoted

/-!
# WebhookDelivery.Json.Printer

Writing a JSON document without spaces. Only the characters that must be escaped are, and halves of
surrogate pairs.
-/

namespace WebhookDelivery
namespace Json

def escapeChar (c : Char) : List Char :=
  if c = '"' ∨ c = '\\' then ['\\', c]
  else if c.toNat < 0x20 then ['\\', 'u'] ++ Text.hexDigits 4 c.toNat
  else [c]

def writeString (s : String) : String :=
  "\"" ++ String.ofList (s.toList.flatMap escapeChar) ++ "\""

def escapePoint : CodePoint → List Char
  | .char c => escapeChar c
  | .half n => ['\\', 'u'] ++ Text.hexDigits 4 (CodePoint.halfUnit n)

mutual

def write : Json → String
  | .null => "null"
  | .bool b => if b then "true" else "false"
  | .int i => toString i
  | .float x => Decimal.write x
  | .str s => writeString s
  | .loose s => "\"" ++ String.ofList (s.flatMap escapePoint) ++ "\""
  | .arr items => "[" ++ writeItems items ++ "]"
  | .obj members => "\x7b" ++ writeMembers members ++ "\x7d"

def writeItems : List Json → String
  | [] => ""
  | [item] => write item
  | item :: rest => write item ++ "," ++ writeItems rest

def writeMembers : List (String × Json) → String
  | [] => ""
  | [(name, value)] => writeString name ++ ":" ++ write value
  | (name, value) :: rest => writeString name ++ ":" ++ write value ++ "," ++ writeMembers rest

end

end Json
end WebhookDelivery
