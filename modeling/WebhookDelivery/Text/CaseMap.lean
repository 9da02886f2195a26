import WebhookDelivery.Text.CaseTable
import WebhookDelivery.Text.LooseText

/-!
# WebhookDelivery.Text.CaseMap

Lower-case and capital forms of whole texts. A character may become several, and a capital sigma
becomes the final form where it ends a word.
-/

namespace WebhookDelivery
namespace Text

def CaseRun.contains (r : CaseRun) (n : Nat) : Bool :=
  r.first ≤ n && n ≤ r.last && (n - r.first) % r.stride == 0

/-- The character that a table of runs gives for `c`; itself where no run holds it. -/
def shiftCase (runs : Array CaseRun) (c : Char) : Char :=
  match runs.find? (·.contains c.toNat) with
  | some r => Char.ofNat (c.toNat + r.offset).toNat
  | none => c

def isCased (c : Char) : Bool := inRanges casedRanges c.toNat

def isCaseIgnorable (c : Char) : Bool := inRanges caseIgnorableRanges c.toNat

/-- The first character that is not ignorable has case. -/
def meetsCased (s : List Char) : Bool :=
  match s.dropWhile isCaseIgnorable with
  | c :: _ => isCased c
  | [] => false

/-- A sigma ends a word when a letter stands before it and none after it. -/
def endsWord (before after : List Char) : Bool :=
  meetsCased before && !meetsCased after

/-- The lower-case form of one character, wherever it stands; a capital I with dot keeps its dot. -/
def lowerChar (c : Char) : List Char :=
  if c.toNat < 0x80 then [c.toLower]
  else if c.toNat = 0x130 then ['i', Char.ofNat 0x307]
  else [shiftCase lowerRuns c]

def upperChar (c : Char) : List Char :=
  if c.toNat < 0x80 then [c.toUpper]
  else match upperSequences.find? (·.1 == c.toNat) with
    | some (_, cs) => cs.map Char.ofNat
    | none => [shiftCase upperRuns c]

/-- Lower case of `s` where `before`, nearest first, stands before it. -/
def lowerAfter (before : List Char) : List Char → List Char
  | [] => []
  | c :: rest =>
    (if c.toNat = 0x3a3 then [Char.ofNat (if endsWord before rest then 0x3c2 else 0x3c3)]
      else lowerChar c) ++ lowerAfter (c :: before) rest

def lower (s : List Char) : List Char := lowerAfter [] s

def upper (s : List Char) : List Char := s.flatMap upperChar

def lowerString (s : String) : String := String.ofList (lower s.toList)

def upperString (s : String) : String := String.ofList (upper s.toList)

end Text

namespace LooseText

/-- Lower case of a text where `run`, last first, are the characters since the last half, which has no
case and ends a word. -/
def lowerAfter (run : List Char) : LooseText → LooseText
  | [] => ofChars (Text.lower run.reverse)
  | .char c :: rest => lowerAfter (c :: run) rest
  | .half n :: rest => ofChars (Text.lower run.reverse) ++ .half n :: lowerAfter [] rest

def lower (s : LooseText) : LooseText := lowerAfter [] s

@[simp]
theorem lower_ofChars (s : List Char) : (ofChars s).lower = ofChars (Text.lower s) := by
  have hafter (run s : List Char) :
      lowerAfter run (ofChars s) = ofChars (Text.lower (run.reverse ++ s)) := by
    induction s generalizing run with
    | nil => rw [List.append_nil]; rfl
    | cons c rest ih =>
      change lowerAfter (c :: run) (ofChars rest) = _
      rw [ih, List.reverse_cons, List.append_assoc, List.singleton_append]
  exact hafter [] s

end LooseText
end WebhookDelivery
