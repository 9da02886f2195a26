import WebhookDelivery.Text.Hex

/-!
# WebhookDelivery.Text.Utf8

Texts as bytes in UTF-8. Reading splits the bytes into characters and maximal invalid parts: a part
is the longest run of bytes that could begin a character, or one byte that begins none.
-/

namespace WebhookDelivery
namespace Text

def utf8 (s : List Char) : Bytes := s.flatMap String.utf8EncodeChar

def utf8String (s : String) : Bytes := utf8 s.toList

/-- Reads `need` further bytes of a character whose leading bits are `value`; the first of them must
lie between `low` and `high`. The bytes from the first that does not fit are left. -/
def continueChar : (need : Nat) → (low high : UInt8) → (value : Nat) → Bytes → Option Nat × Bytes
  | 0, _, _, value, bs => (some value, bs)
  | _ + 1, _, _, _, [] => (none, [])
  | need + 1, low, high, value, b :: bs =>
    if low ≤ b ∧ b ≤ high then
      continueChar need 0x80 0xbf (64 * value + b.toNat % 64) bs
    else (none, b :: bs)

/-- The character that begins with `b`, or nothing for an invalid part, and the bytes after it. -/
def nextChar (b : UInt8) (bs : Bytes) : Option Nat × Bytes :=
  if b < 0x80 then (some b.toNat, bs)
  else if b < 0xc2 then (none, bs)
  else if b < 0xe0 then continueChar 1 0x80 0xbf (b.toNat % 32) bs
  else if b = 0xe0 then continueChar 2 0xa0 0xbf 0 bs
  else if b = 0xed then continueChar 2 0x80 0x9f 13 bs
  else if b < 0xf0 then continueChar 2 0x80 0xbf (b.toNat % 16) bs
  else if b = 0xf0 then continueChar 3 0x90 0xbf 0 bs
  else if b < 0xf4 then continueChar 3 0x80 0xbf (b.toNat % 8) bs
  else if b = 0xf4 then continueChar 3 0x80 0x8f 4 bs
  else (none, bs)

theorem continueChar_length (need : Nat) (low high : UInt8) (value : Nat) (bs : Bytes) :
    (continueChar need low high value bs).2.length ≤ bs.length := by
  induction need generalizing low high value bs with
  | zero => simp [continueChar]
  | succ need ih =>
    cases bs with
    | nil => simp [continueChar]
    | cons b bs =>
      simp only [continueChar]
      split
      · exact Nat.le_trans (ih ..) (by simp)
      · simp

theorem nextChar_length (b : UInt8) (bs : Bytes) : (nextChar b bs).2.length ≤ bs.length := by
  unfold nextChar
  repeat' split
  all_goals first | exact continueChar_length .. | simp

/-- The pieces of `bs`, after those already read, which stand in `done` last first. -/
def utf8PiecesAfter (done : List (Option Char)) (bs : Bytes) : List (Option Char) :=
  match bs with
  | [] => done.reverse
  | b :: bs =>
    utf8PiecesAfter ((nextChar b bs).1.map Char.ofNat :: done) (nextChar b bs).2
termination_by bs.length
decreasing_by
  have := nextChar_length b bs
  simp
  omega

/-- The characters of a byte string in order, with nothing in the place of an invalid part. -/
def utf8Pieces (bs : Bytes) : List (Option Char) := utf8PiecesAfter [] bs

/-- The text with the replacement character in the place of each invalid part. -/
def utf8Lossy (bs : Bytes) : List Char :=
  (utf8Pieces bs).map (·.getD (Char.ofNat 0xfffd))

def utf8Decode? (bs : Bytes) : Option (List Char) := (utf8Pieces bs).mapM id

end Text
end WebhookDelivery
