import WebhookDelivery.Text.Blank
import WebhookDelivery.Text.Utf8

/-!
# WebhookDelivery.Text.LooseText

Texts that need not be well formed: between their characters there may be halves of surrogate pairs
that stand alone. A half is no character, so that a text with one has no bytes in UTF-8.

* `LooseText.utf8`: the bytes of a text, or the halves that it cannot be encoded for.
* `LooseText.utf8_ofChars`, `LooseText.utf8_eq_error_iff`: the texts that can be encoded.
-/

namespace WebhookDelivery

inductive CodePoint where
  | char (c : Char)
  | half (n : Fin 0x800)
  deriving DecidableEq, Repr

namespace CodePoint

/-- The code point of a number; the halves are those from `0xd800` to `0xdfff`. -/
def ofNat (n : Nat) : CodePoint :=
  if 0xd800 ≤ n ∧ n < 0xe000 then .half (Fin.ofNat 0x800 (n - 0xd800)) else .char (Char.ofNat n)

/-- The number of a half. -/
def halfUnit (n : Fin 0x800) : Nat := 0xd800 + n.val

def char? : CodePoint → Option Char
  | char c => some c
  | half _ => none

/-- The character, or the one that stands in for what is none. -/
def shown (c : CodePoint) : Char := c.char?.getD (Char.ofNat 0xfffd)

def isHalf (c : CodePoint) : Bool := c.char?.isNone

def isBlank (c : CodePoint) : Bool := c.char?.any Text.isBlank

end CodePoint

abbrev LooseText := List CodePoint

/-- Where a text cannot be encoded: the first half in it, and how many follow it directly. -/
structure EncodingFault where
  position : Nat
  half : Fin 0x800
  more : Nat
  deriving DecidableEq, Repr

def EncodingFault.message (e : EncodingFault) : String :=
  let place :=
    if e.more = 0 then
      "character '\\u" ++ String.ofList (Text.hexDigits 4 (CodePoint.halfUnit e.half)) ++
        "' in position " ++ toString e.position
    else "characters in position " ++ toString e.position ++ "-" ++ toString (e.position + e.more)
  "'utf-8' codec can't encode " ++ place ++ ": surrogates not allowed"

namespace LooseText

def ofChars (s : List Char) : LooseText := s.map .char

def ofString (s : String) : LooseText := ofChars s.toList

/-- The characters of a text without halves. -/
def chars? (s : LooseText) : Option (List Char) := s.mapM CodePoint.char?

/-- Why a text with `position` code points before it cannot be encoded. -/
def faultFrom? (position : Nat) : LooseText → Option EncodingFault
  | [] => none
  | .char _ :: rest => faultFrom? (position + 1) rest
  | .half n :: rest => some ⟨position, n, (rest.takeWhile CodePoint.isHalf).length⟩

def utf8 (s : LooseText) : Except EncodingFault Bytes :=
  match faultFrom? 0 s with
  | some e => .error e
  | none => .ok (Text.utf8 (s.filterMap CodePoint.char?))

/-- A text between quotes, with the halves by their numbers. -/
def quote (s : LooseText) : List Char :=
  let mark := if s.contains (.char '\'') && !s.contains (.char '"') then '"' else '\''
  mark :: s.flatMap (quotePoint mark) ++ [mark]
where
  quotePoint (mark : Char) : CodePoint → List Char
    | .char c => Text.quoteChar mark c
    | .half n => ['\\', 'u'] ++ Text.hexDigits 4 (CodePoint.halfUnit n)

def trim (s : LooseText) : LooseText := Text.trimBy CodePoint.isBlank s

/-- There is half of a surrogate pair in the text. -/
def HasHalf (s : LooseText) : Prop := ∃ c ∈ s, c.isHalf = true

instance (s : LooseText) : Decidable s.HasHalf := inferInstanceAs (Decidable (∃ _ ∈ _, _))

theorem faultFrom?_eq_none_iff (s : LooseText) (position : Nat) :
    faultFrom? position s = none ↔ ¬ s.HasHalf := by
  induction s generalizing position with
  | nil => simp [faultFrom?, HasHalf]
  | cons c rest ih =>
    have hcons : HasHalf (c :: rest) ↔ c.isHalf = true ∨ HasHalf rest := by
      simp [HasHalf]
    rw [hcons, not_or, ← ih (position + 1)]
    cases c with
    | half n => simp [faultFrom?, CodePoint.isHalf, CodePoint.char?]
    | char c => simp [faultFrom?, CodePoint.isHalf, CodePoint.char?]

theorem not_hasHalf_ofChars (s : List Char) : ¬ (ofChars s).HasHalf := by
  rintro ⟨c, hc, hhalf⟩
  obtain ⟨d, -, rfl⟩ := List.mem_map.1 hc
  cases hhalf

theorem filterMap_ofChars (s : List Char) : (ofChars s).filterMap CodePoint.char? = s := by
  rw [ofChars, List.filterMap_map]
  exact List.filterMap_some

@[simp]
theorem map_shown_ofChars (s : List Char) : (ofChars s).map CodePoint.shown = s := by
  rw [ofChars, List.map_map]
  exact List.map_id s

@[simp]
theorem utf8_ofChars (s : List Char) : (ofChars s).utf8 = .ok (Text.utf8 s) := by
  rw [utf8, (faultFrom?_eq_none_iff _ 0).2 (not_hasHalf_ofChars s)]
  exact congrArg (Except.ok ∘ Text.utf8) (filterMap_ofChars s)

/-- The texts that cannot be encoded are those with a half. -/
theorem utf8_eq_error_iff (s : LooseText) : (∃ e, s.utf8 = .error e) ↔ s.HasHalf := by
  have hnone := faultFrom?_eq_none_iff s 0
  unfold utf8
  cases hfault : faultFrom? 0 s with
  | none => simpa [hfault] using hnone
  | some e => simpa [hfault] using hnone

@[simp]
theorem chars?_ofChars (s : List Char) : (ofChars s).chars? = some s := by
  induction s with
  | nil => rfl
  | cons c rest ih =>
    change (CodePoint.char c :: ofChars rest).mapM CodePoint.char? = _
    rw [List.mapM_cons, show (ofChars rest).mapM CodePoint.char? = some rest from ih]
    rfl

end LooseText
end WebhookDelivery
