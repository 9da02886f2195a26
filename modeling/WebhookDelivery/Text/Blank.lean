/-!
# WebhookDelivery.Text.Blank

Blank characters of Unicode text, and texts with the blanks at their ends removed.
-/

namespace WebhookDelivery
namespace Text

/-- White space, line and paragraph separators, and the four information separators of ASCII. -/
def isBlank (c : Char) : Bool :=
  let n := c.toNat
  (0x09 ≤ n && n ≤ 0x0d) || (0x1c ≤ n && n ≤ 0x20) || n == 0x85 || n == 0xa0 || n == 0x1680 ||
    (0x2000 ≤ n && n ≤ 0x200a) || n == 0x2028 || n == 0x2029 || n == 0x202f || n == 0x205f ||
    n == 0x3000

/-- Blank among the ASCII characters: the space and the controls from tab to carriage return. -/
def isAsciiBlank (c : Char) : Bool :=
  c.toNat == 0x20 || (0x09 ≤ c.toNat && c.toNat ≤ 0x0d)

/-- The text without the characters of a class at its two ends. -/
def trimBy {α : Type} (class_ : α → Bool) (s : List α) : List α :=
  ((s.dropWhile class_).reverse.dropWhile class_).reverse

def trim (s : List Char) : List Char := trimBy isBlank s

def isAscii (s : List Char) : Bool := s.all fun c => c.toNat < 0x80

end Text
end WebhookDelivery
