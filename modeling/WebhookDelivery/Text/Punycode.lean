import WebhookDelivery.Text.Lines
import WebhookDelivery.Text.LooseText

/-!
# WebhookDelivery.Text.Punycode

Punycode: any text in letters and digits of ASCII. The characters in ASCII come first, with a hyphen
after them if there are any; then numbers tell which others are inserted, and where, from the least to
the greatest. A number is as long as it needs to be, with its last place first, and from which digit
on it goes on adapts to the numbers before it.

* `Punycode.encode`, `Punycode.decode?`: a text in Punycode and back.
* `Punycode.length_of_readNumber?`: reading a number uses up text, so that decoding ends.
-/

namespace WebhookDelivery
namespace Punycode

/-- The first code point outside ASCII. -/
def firstPoint : Nat := 0x80

def initialBias : Nat := 72

/-- A number ends at a place with a digit below this one. -/
def threshold (bias place : Nat) : Nat := min 26 (max 1 (36 * (place + 1) - bias))

theorem threshold_bounds (bias place : Nat) :
    1 ≤ threshold bias place ∧ threshold bias place ≤ 26 := by
  unfold threshold
  omega

/-- The bias after a number, when the text has become as long as `length`. -/
def adapt (number : Nat) (isFirst : Bool) (length : Nat) : Nat :=
  let damped := if isFirst then number / 700 else number / 2
  scale (damped + damped / length) 0
where
  scale (number bias : Nat) : Nat :=
    if 455 < number then scale (number / 35) (bias + 36)
    else bias + 36 * number / (number + 38)

def digitChar (digit : Nat) : Char :=
  Char.ofNat (if digit < 26 then 0x61 + digit else 0x30 + (digit - 26))

def digit? (c : Char) : Option Nat :=
  if 'a' ≤ c && c ≤ 'z' then some (c.toNat - 0x61)
  else if '0' ≤ c && c ≤ '9' then some (c.toNat - 0x30 + 26)
  else none

/-! ## Encoding -/

def writeNumber (bias place number : Nat) : List Char :=
  let least := threshold bias place
  if number < least then [digitChar number]
  else
    digitChar (least + (number - least) % (36 - least)) ::
      writeNumber bias (place + 1) ((number - least) / (36 - least))
termination_by number
decreasing_by
  have hbounds := threshold_bounds bias place
  exact Nat.lt_of_le_of_lt (Nat.div_le_self _ _) (by omega)

/-- A text of which some characters have been written. -/
structure Writer where
  digits : List Char
  number : Nat
  bias : Nat
  written : Nat

/-- Passes a character of the text while `point` is inserted. -/
def Writer.pass (ascii : Nat) (point : Char) (w : Writer) (c : Char) : Writer :=
  if c < point then { w with number := w.number + 1 }
  else if c = point then
    { digits := w.digits ++ writeNumber w.bias 0 w.number, number := 0,
      bias := adapt w.number (w.written = ascii) (w.written + 1), written := w.written + 1 }
  else w

/-- Writes the characters `points` of a text. They come in their order, the first from `next` on. -/
def writePoints (s : List Char) (ascii : Nat) : List Char → Nat → Writer → Writer
  | [], _, w => w
  | c :: rest, next, w =>
    let skipped := { w with number := w.number + (c.toNat - next) * (w.written + 1) }
    let w := s.foldl (Writer.pass ascii c) skipped
    writePoints s ascii rest (c.toNat + 1) { w with number := w.number + 1 }

def encode (s : List Char) : List Char :=
  let ascii := s.filter (·.toNat < firstPoint)
  let points := (s.filter (firstPoint ≤ ·.toNat)).eraseDups.mergeSort (· ≤ ·)
  let w := writePoints s ascii.length points firstPoint ⟨[], 0, initialBias, ascii.length⟩
  ascii ++ (if ascii.isEmpty then [] else ['-']) ++ w.digits

/-! ## Decoding -/

/-- The number at the start of a text, and what follows it; `number` has been read of it, and a digit
at the next place counts `weight`. -/
def readNumber? (bias : Nat) : (place weight number : Nat) → List Char → Option (Nat × List Char)
  | _, _, _, [] => none
  | place, weight, number, c :: rest =>
    match digit? c with
    | none => none
    | some digit =>
      let least := threshold bias place
      let number := number + digit * weight
      if digit < least then some (number, rest)
      else readNumber? bias (place + 1) (weight * (36 - least)) number rest

theorem length_of_readNumber? {bias place weight number n : Nat} {s rest : List Char}
    (h : readNumber? bias place weight number s = some (n, rest)) : rest.length < s.length := by
  induction s generalizing place weight number with
  | nil => cases h
  | cons c tail ih =>
    rw [readNumber?] at h
    cases hdigit : digit? c with
    | none =>
      rw [hdigit] at h
      cases h
    | some digit =>
      rw [hdigit] at h
      dsimp only at h
      split at h
      · cases h
        exact Nat.lt_succ_self _
      · exact Nat.lt_trans (ih h) (Nat.lt_succ_self _)

/-- Inserts characters into a text, from `index` and the code point `point` on. -/
def insertPoints? (isFirst : Bool) (bias point index : Nat) (text : LooseText) :
    List Char → Option LooseText
  | [] => some text
  | c :: rest =>
    match h : readNumber? bias 0 1 0 (c :: rest) with
    | none => none
    | some (number, rest) =>
      let length := text.length + 1
      let point := point + (index + number) / length
      let index := (index + number) % length
      if 0x10ffff < point then none
      else
        insertPoints? false (adapt number isFirst length) point (index + 1)
          (text.insertIdx index (.ofNat point)) rest
termination_by s => s.length
decreasing_by exact length_of_readNumber? h

/-- The text that is written in Punycode. Capital digits count as small ones. -/
def decode? (s : List Char) : Option LooseText :=
  let (ascii, numbers) := (Text.splitLast? '-' s).getD ([], s)
  insertPoints? true initialBias firstPoint 0 (.ofChars ascii) (numbers.map Char.toLower)

end Punycode
end WebhookDelivery
