import WebhookDelivery.Decimal
import WebhookDelivery.Json.Basic
import WebhookDelivery.Text.Hex

/-!
# WebhookDelivery.Json.Parser

Reading a JSON document from text. A document that cannot be read is refused with the position of
the character at which reading stopped; `NaN` and the infinities are taken as numbers.
-/

namespace WebhookDelivery
namespace Json

inductive SyntaxError where
  | unexpected (position : Nat)
  | tooManyDigits
  deriving DecidableEq, Repr

/-- What is left of a text, and how many characters stand before it. -/
structure Cursor where
  position : Nat
  rest : List Char

def Cursor.drop (c : Cursor) (n : Nat) : Cursor := ⟨c.position + n, c.rest.drop n⟩

def isSpace (c : Char) : Bool := c = ' ' || c = '\t' || c = '\n' || c = '\r'

def Cursor.skipSpace (c : Cursor) : Cursor :=
  let spaces := c.rest.takeWhile isSpace
  ⟨c.position + spaces.length, c.rest.dropWhile isSpace⟩

/-- The character that a one-letter escape stands for. -/
def unescape? : Char → Option Char
  | '"' => some '"'
  | '\\' => some '\\'
  | '/' => some '/'
  | 'b' => some (Char.ofNat 8)
  | 'f' => some (Char.ofNat 12)
  | 'n' => some '\n'
  | 'r' => some '\r'
  | 't' => some '\t'
  | _ => none

def hexFour? (a b c d : Char) : Option Nat :=
  match Text.hexValue? a, Text.hexValue? b, Text.hexValue? c, Text.hexValue? d with
  | some a, some b, some c, some d => some (4096 * a + 256 * b + 16 * c + d)
  | _, _, _, _ => none

/-- Reads a string whose opening quote stands at `start`; `done` holds the code points read so far,
last first, and `high` the first half of a surrogate pair that was read just before. -/
def readString (start position : Nat) (high : Option Nat) (done : LooseText) :
    List Char → Except SyntaxError (LooseText × Cursor)
  | [] => .error (.unexpected start)
  | '"' :: rest => .ok (done.reverse, ⟨position + 1, rest⟩)
  | '\\' :: rest =>
    match rest with
    | [] => .error (.unexpected start)
    | 'u' :: a :: b :: c :: d :: e :: rest =>
      match hexFour? a b c d with
      | none => .error (.unexpected (position + 1))
      | some n =>
        match high, done with
        | some h, _ :: earlier =>
          if 0xdc00 ≤ n ∧ n < 0xe000 then
            readString start (position + 6) none
              (.char (Char.ofNat (0x10000 + (h - 0xd800) * 1024 + (n - 0xdc00))) :: earlier)
              (e :: rest)
          else
            readString start (position + 6) (if 0xd800 ≤ n ∧ n < 0xdc00 then some n else none)
              (.ofNat n :: done) (e :: rest)
        | _, _ =>
          readString start (position + 6) (if 0xd800 ≤ n ∧ n < 0xdc00 then some n else none)
            (.ofNat n :: done) (e :: rest)
    | 'u' :: _ => .error (.unexpected (position + 1))
    | c :: rest =>
      match unescape? c with
      | some x => readString start (position + 2) none (.char x :: done) rest
      | none => .error (.unexpected position)
  | c :: rest =>
    if c.toNat < 0x20 then .error (.unexpected position)
    else readString start (position + 1) none (.char c :: done) rest

open Decimal (isDigit digitsValue)

/-- The digits and the length of a fraction at the head of a text. -/
def takeFraction : List Char → List Char
  | '.' :: rest => rest.takeWhile isDigit
  | _ => []

/-- The value and the length of an exponent at the head of a text. -/
def takeExponent? : List Char → Option (Int × Nat)
  | c :: rest =>
    if c = 'e' ∨ c = 'E' then
      match rest with
      | '-' :: rest =>
        let digits := rest.takeWhile isDigit
        if digits.isEmpty then none else some (-(digitsValue digits : Int), digits.length + 2)
      | '+' :: rest =>
        let digits := rest.takeWhile isDigit
        if digits.isEmpty then none else some ((digitsValue digits : Int), digits.length + 2)
      | _ =>
        let digits := rest.takeWhile isDigit
        if digits.isEmpty then none else some ((digitsValue digits : Int), digits.length + 1)
    else none
  | [] => none

/-- Reads a number without its sign at the cursor; `start` is where the number began. -/
def readNumber (negative : Bool) (start : Nat) (c : Cursor) : Except SyntaxError (Json × Cursor) :=
  let whole :=
    match c.rest with
    | '0' :: _ => ['0']
    | rest => rest.takeWhile isDigit
  if whole.isEmpty then .error (.unexpected start)
  else
    let c := c.drop whole.length
    let fraction := takeFraction c.rest
    let c := if fraction.isEmpty then c else c.drop (fraction.length + 1)
    match takeExponent? c.rest, fraction with
    | none, [] =>
      if 4300 < whole.length then .error .tooManyDigits
      else
        let n := digitsValue whole
        .ok (.int (if negative then -(n : Int) else n), c)
    | exponent?, fraction =>
      let (e, length) := exponent?.getD (0, 0)
      let x := Decimal.ofDigits ⟨digitsValue (whole ++ fraction), e - fraction.length⟩
      .ok (.float (if negative then -x else x), c.drop length)

/-- The members of an object, a repeated name in its first place with its last value. -/
def putMember (members : List (String × Json)) (name : String) (value : Json) :
    List (String × Json) :=
  if members.any (·.1 == name) then
    members.map fun m => if m.1 == name then (name, value) else m
  else members ++ [(name, value)]

def startsWith (word : String) (s : List Char) : Bool := word.toList.isPrefixOf s

mutual

/-- Reads the value at the cursor. Every nested value lies `depth` levels deep at most. -/
def readValue : (depth : Nat) → Cursor → Except SyntaxError (Json × Cursor)
  | 0, c => .error (.unexpected c.position)
  | depth + 1, c =>
    match c.rest with
    | '"' :: rest =>
      match readString c.position (c.position + 1) none [] rest with
      | .ok (s, c) => .ok (.ofLoose s, c)
      | .error e => .error e
    | '{' :: _ =>
      let c := (c.drop 1).skipSpace
      match c.rest with
      | '}' :: _ => .ok (.obj [], c.drop 1)
      | _ => readMembers depth [] c
    | '[' :: _ =>
      let c := (c.drop 1).skipSpace
      match c.rest with
      | ']' :: _ => .ok (.arr [], c.drop 1)
      | _ => readItems depth [] c
    | '-' :: rest =>
      if startsWith "Infinity" rest then .ok (.float (-1.0 / 0.0), c.drop 9)
      else readNumber true c.position (c.drop 1)
    | rest =>
      if startsWith "null" rest then .ok (.null, c.drop 4)
      else if startsWith "true" rest then .ok (.bool true, c.drop 4)
      else if startsWith "false" rest then .ok (.bool false, c.drop 5)
      else if startsWith "NaN" rest then .ok (.float (0.0 / 0.0), c.drop 3)
      else if startsWith "Infinity" rest then .ok (.float (1.0 / 0.0), c.drop 8)
      else readNumber false c.position c

/-- Reads the items of an array from the cursor on, after the items in `done`, last first. -/
def readItems : (depth : Nat) → (done : List Json) → Cursor → Except SyntaxError (Json × Cursor)
  | 0, _, c => .error (.unexpected c.position)
  | depth + 1, done, c =>
    match readValue depth c with
    | .error e => .error e
    | .ok (value, c) =>
      let c := c.skipSpace
      match c.rest with
      | ']' :: _ => .ok (.arr (value :: done).reverse, c.drop 1)
      | ',' :: _ => readItems depth (value :: done) (c.drop 1).skipSpace
      | _ => .error (.unexpected c.position)

/-- Reads the members of an object from the cursor on, after the members in `done`. In the name of a
member the replacement character stands in for each half of a surrogate pair. -/
def readMembers : (depth : Nat) → (done : List (String × Json)) → Cursor →
    Except SyntaxError (Json × Cursor)
  | 0, _, c => .error (.unexpected c.position)
  | depth + 1, done, c =>
    match c.rest with
    | '"' :: rest =>
      match readString c.position (c.position + 1) none [] rest with
      | .error e => .error e
      | .ok (name, c) =>
        let c := c.skipSpace
        match c.rest with
        | ':' :: _ =>
          match readValue depth (c.drop 1).skipSpace with
          | .error e => .error e
          | .ok (value, c) =>
            let done := putMember done (String.ofList (name.map CodePoint.shown)) value
            let c := c.skipSpace
            match c.rest with
            | '}' :: _ => .ok (.obj done, c.drop 1)
            | ',' :: _ => readMembers depth done (c.drop 1).skipSpace
            | _ => .error (.unexpected c.position)
        | _ => .error (.unexpected c.position)
    | _ => .error (.unexpected c.position)

end

/-- Reads a whole text as one document. -/
def parse (s : List Char) : Except SyntaxError Json :=
  match readValue (2 * s.length + 1) (Cursor.skipSpace ⟨0, s⟩) with
  | .error e => .error e
  | .ok (value, c) =>
    let c := c.skipSpace
    if c.rest.isEmpty then .ok value else .error (.unexpected c.position)

end Json
end WebhookDelivery
