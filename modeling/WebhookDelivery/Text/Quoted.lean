import WebhookDelivery.Text.Printable

/-!
# WebhookDelivery.Text.Quoted

A text between quotes, as messages show it: single quotes, unless the text holds one and no double
quote; the backslash and the quote escaped; characters that are not printable by their number.
-/

namespace WebhookDelivery
namespace Text

def hexDigit (n : Nat) : Char :=
  if n < 10 then Char.ofNat (48 + n) else Char.ofNat (87 + n)

/-- The last `width` hexadecimal digits of a number. -/
def hexDigits : (width : Nat) → Nat → List Char
  | 0, _ => []
  | width + 1, n => hexDigits width (n / 16) ++ [hexDigit (n % 16)]

/-- One character between quotes `quote`. -/
def quoteChar (quote c : Char) : List Char :=
  if c = quote ∨ c = '\\' then ['\\', c]
  else if c = '\n' then ['\\', 'n']
  else if c = '\r' then ['\\', 'r']
  else if c = '\t' then ['\\', 't']
  else if isPrintable c then [c]
  else if c.toNat < 0x100 then ['\\', 'x'] ++ hexDigits 2 c.toNat
  else if c.toNat < 0x10000 then ['\\', 'u'] ++ hexDigits 4 c.toNat
  else ['\\', 'U'] ++ hexDigits 8 c.toNat

def quote (s : List Char) : List Char :=
  let mark := if s.contains '\'' && !s.contains '"' then '"' else '\''
  mark :: s.flatMap (quoteChar mark) ++ [mark]

def quoteString (s : String) : String := String.ofList (quote s.toList)

end Text
end WebhookDelivery
