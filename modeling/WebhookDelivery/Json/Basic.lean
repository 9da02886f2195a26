import WebhookDelivery.Text.LooseText

/-!
# WebhookDelivery.Json.Basic

JSON documents. Integers of any size are kept apart from numbers written with a point or an
exponent, texts with halves of surrogate pairs from those that are made of characters, and the
members of an object keep the order in which they were written.
-/

namespace WebhookDelivery

inductive Json where
  | null
  | bool (b : Bool)
  | int (i : Int)
  | float (x : Float)
  | str (s : String)
  | loose (s : LooseText)
  | arr (items : List Json)
  | obj (members : List (String × Json))
  deriving Inhabited

namespace Json

/-- The value of the last member of a name. -/
def member? (name : String) : Json → Option Json
  | .obj members => (members.reverse.find? (·.1 == name)).map (·.2)
  | _ => none

/-- A text as a document. -/
def ofLoose (s : LooseText) : Json :=
  match s.chars? with
  | some chars => .str (String.ofList chars)
  | none => .loose s

@[simp]
theorem ofLoose_ofChars (s : List Char) : ofLoose (.ofChars s) = .str (String.ofList s) := by
  rw [ofLoose, LooseText.chars?_ofChars]

/-- A text, or null where there is none. -/
def ofString? : Option String → Json
  | some s => .str s
  | none => .null

def ofInt? : Option Int → Json
  | some i => .int i
  | none => .null

end Json
end WebhookDelivery
