/-!
# WebhookDelivery.Text.Lines

A text cut at its line ends, or where a character occurs last. A carriage return with its line feed
is one end, and an end at the very end of the text opens no further line.
-/

namespace WebhookDelivery
namespace Text

def isLineEnd (c : Char) : Bool :=
  let n := c.toNat
  (0x0a ≤ n && n ≤ 0x0d) || (0x1c ≤ n && n ≤ 0x1e) || n == 0x85 || n == 0x2028 || n == 0x2029

/-- The lines of a text of which `line`, last character first, has been read. -/
def linesFrom (line : List Char) : List Char → List (List Char)
  | [] => if line.isEmpty then [] else [line.reverse]
  | '\r' :: '\n' :: rest => line.reverse :: linesFrom [] rest
  | c :: rest => if isLineEnd c then line.reverse :: linesFrom [] rest else linesFrom (c :: line) rest

def lines (s : List Char) : List (List Char) := linesFrom [] s

/-- What stands before and after the last occurrence of a character. -/
def splitLast? (mark : Char) (s : List Char) : Option (List Char × List Char) :=
  let reversed := s.reverse
  match reversed.dropWhile (· != mark) with
  | _ :: before => some (before.reverse, (reversed.takeWhile (· != mark)).reverse)
  | [] => none

end Text
end WebhookDelivery
