import WebhookDelivery.Decimal
import WebhookDelivery.Json.Basic
import WebhookDelivery.Text.Quoted

/-!
# WebhookDelivery.Text.Template

Texts with places for arguments. A place is a percent sign and a letter: `%s` takes any value,
`%r` any value with texts in quotes, `%d` a number of which the integer part is written, `%x` and
`%o` an integer in another base, `%f` a number with a fixed count of decimals and `%c` a character.
Between the two may stand the name of a member in parentheses, flags, a width and a precision. Two
percent signs stand for one.

* `Template.read?`: a template as text and places.
* `fillLine`: the text that arguments make of a template.
-/

namespace WebhookDelivery
namespace Text

/-- Why arguments do not fit a template. -/
inductive TemplateError where
  | tooFew
  | tooMany
  | wrongKind
  | badPlace
  | noMember
  deriving DecidableEq, Repr

/-- A place of a template. `flags` holds some of `-`, `+`, `0`, `#` and the space. -/
structure Place where
  member : Option (List Char)
  flags : List Char
  width : Nat
  precision : Option Nat
  kind : Char
  deriving DecidableEq, Repr

inductive Piece where
  | text (c : Char)
  | place (p : Place)
  deriving DecidableEq, Repr

/-! ## Reading a template -/

namespace Place

def isFlag (c : Char) : Bool := ['-', '+', '0', '#', ' '].contains c

/-- The name in parentheses that may stand first, and what follows it. -/
def readMember : List Char → Option (List Char) × List Char
  | '(' :: rest =>
    (some (rest.takeWhile (· != ')')), (rest.dropWhile (· != ')')).drop 1)
  | s => (none, s)

/-- The precision after a point, and what follows it. -/
def readPrecision : List Char → Option Nat × List Char
  | '.' :: rest =>
    (some (Decimal.digitsValue (rest.takeWhile Decimal.isDigit)), rest.dropWhile Decimal.isDigit)
  | s => (none, s)

/-- Reads a place after its percent sign, and gives what follows it. -/
def read? (s : List Char) : Option (Place × List Char) :=
  let (member, s) := readMember s
  let flags := s.takeWhile isFlag
  let s := s.dropWhile isFlag
  let width := Decimal.digitsValue (s.takeWhile Decimal.isDigit)
  let (precision, s) := readPrecision (s.dropWhile Decimal.isDigit)
  match s with
  | [] => none
  | kind :: rest => some (⟨member, flags, width, precision, kind⟩, rest)

theorem length_dropWhile_le (p : Char → Bool) (s : List Char) :
    (s.dropWhile p).length ≤ s.length :=
  (List.dropWhile_suffix p).length_le

theorem length_readMember_le (s : List Char) : (readMember s).2.length ≤ s.length := by
  unfold readMember
  split
  · have := length_dropWhile_le (· != ')') ‹List Char›
    simp only [List.length_drop, List.length_cons]
    omega
  · exact Nat.le_refl _

theorem length_readPrecision_le (s : List Char) : (readPrecision s).2.length ≤ s.length := by
  unfold readPrecision
  split
  · have := length_dropWhile_le Decimal.isDigit ‹List Char›
    simp only [List.length_cons]
    omega
  · exact Nat.le_refl _

/-- A place takes up at least its letter. -/
theorem length_lt_of_read? {s rest : List Char} {p : Place} (h : read? s = some (p, rest)) :
    rest.length < s.length := by
  simp only [read?] at h
  split at h
  · cases h
  · rename_i heq
    cases h
    have h1 := congrArg List.length heq
    have h2 := length_readPrecision_le
      (((readMember s).2.dropWhile isFlag).dropWhile Decimal.isDigit)
    have h3 := length_dropWhile_le Decimal.isDigit ((readMember s).2.dropWhile isFlag)
    have h4 := length_dropWhile_le isFlag (readMember s).2
    have h5 := length_readMember_le s
    simp only [List.length_cons] at h1
    omega

end Place

/-- The pieces of a template; after a piece that cannot be read, nothing more is. -/
def pieces (s : List Char) : List (Option Piece) :=
  match s with
  | [] => []
  | '%' :: '%' :: rest => some (.text '%') :: pieces rest
  | '%' :: rest =>
    match _h : Place.read? rest with
    | none => [none]
    | some (p, after) => some (.place p) :: pieces after
  | c :: rest => some (.text c) :: pieces rest
  termination_by s.length
  decreasing_by
    · simp only [List.length_cons]; omega
    · have := Place.length_lt_of_read? _h
      simp only [List.length_cons]
      omega
    · simp only [List.length_cons]; omega

/-! ## Values -/

mutual

/-- A value as it stands inside another: texts are in quotes. -/
def showInner : Json → String
  | .null => "None"
  | .bool true => "True"
  | .bool false => "False"
  | .int i => toString i
  | .float x => Decimal.write x
  | .str s => quoteString s
  | .loose s => String.ofList s.quote
  | .arr items => "[" ++ ", ".intercalate (showItems items) ++ "]"
  | .obj members => "\x7b" ++ ", ".intercalate (showMembers members) ++ "\x7d"

def showItems : List Json → List String
  | [] => []
  | x :: rest => showInner x :: showItems rest

def showMembers : List (String × Json) → List String
  | [] => []
  | m :: rest => (quoteString m.1 ++ ": " ++ showInner m.2) :: showMembers rest

end

def showValue : Json → String
  | .str s => s
  | .loose s => String.ofList (s.map CodePoint.shown)
  | j => showInner j

/-- The integer of a value; the fraction of a number is cut off where `cut`. -/
def integer? (cut : Bool) : Json → Option Int
  | .int i => some i
  | .bool b => some (if b then 1 else 0)
  | .float x => if cut then Double.truncate? x else none
  | _ => none

/-- The number of a value. -/
def number? : Json → Option Float
  | .float x => some x
  | j => (integer? false j).bind Double.ofInt?

namespace Place

def hasFlag (p : Place) (c : Char) : Bool := p.flags.contains c

/-- Blanks up to the width, on the right where the flag `-` stands. -/
def pad (p : Place) (text : List Char) : List Char :=
  let blanks := List.replicate (p.width - text.length) ' '
  if p.hasFlag '-' then text ++ blanks else blanks ++ text

/-- A sign, and digits filled up with zeros to the width where the flag `0` stands. -/
def padNumber (p : Place) (negative : Bool) (base digits : List Char) : List Char :=
  let sign :=
    if negative then ['-'] else if p.hasFlag '+' then ['+'] else if p.hasFlag ' ' then [' '] else []
  let start := sign ++ base
  if p.hasFlag '0' && !p.hasFlag '-' then
    start ++ List.replicate (p.width - start.length - digits.length) '0' ++ digits
  else p.pad (start ++ digits)

def writeText (p : Place) (text : String) : List Char :=
  p.pad (match p.precision with
    | some n => text.toList.take n
    | none => text.toList)

/-- An integer in a base, with at least as many digits as the precision says. -/
def writeInteger (p : Place) (base : Nat) (mark : List Char) (i : Int) : List Char :=
  let digits := Nat.toDigits base i.natAbs
  let zeros := List.replicate (p.precision.getD 0 - digits.length) '0'
  p.padNumber (decide (i < 0)) (if p.hasFlag '#' then mark else []) (zeros ++ digits)

/-- The magnitude of a number with a fixed count of decimals, the last of them rounded. -/
def fixedDigits (decimals : Nat) (d : Dyadic) : List Char :=
  let value := Decimal.Ratio.ofScaled d.mantissa 2 d.exponent
  let text := Nat.toDigits 10 (Double.roundHalfEven (value.num * Nat.pow 10 decimals) value.den)
  let text := List.replicate (decimals + 1 - text.length) '0' ++ text
  if decimals = 0 then text
  else text.take (text.length - decimals) ++ '.' :: text.drop (text.length - decimals)

def writeFixed (p : Place) (x : Float) : List Char :=
  match Double.decode? x with
  | some d => p.padNumber d.negative [] (fixedDigits (p.precision.getD 6) d)
  | none => p.padNumber (decide (x < 0)) [] (if x.isNaN then "nan".toList else "inf".toList)

def ofOption (text : Option (List Char)) : Except TemplateError (List Char) :=
  match text with
  | some text => .ok text
  | none => .error .wrongKind

def character? : Json → Option (List Char)
  | .str s => if s.length = 1 then some s.toList else none
  | .int i => if 0 ≤ i ∧ i.toNat.isValidChar then some [Char.ofNat i.toNat] else none
  | _ => none

/-- The text that a value makes of a place. -/
def fill (p : Place) (value : Json) : Except TemplateError (List Char) :=
  match p.kind with
  | 's' => .ok (p.writeText (showValue value))
  | 'r' => .ok (p.writeText (showInner value))
  | 'c' => ofOption ((character? value).map p.pad)
  | 'd' | 'i' | 'u' => ofOption ((integer? true value).map (p.writeInteger 10 []))
  | 'o' => ofOption ((integer? false value).map (p.writeInteger 8 ['0', 'o']))
  | 'x' => ofOption ((integer? false value).map (p.writeInteger 16 ['0', 'x']))
  | 'X' =>
    ofOption ((integer? false value).map fun i => (p.writeInteger 16 ['0', 'x'] i).map Char.toUpper)
  | 'f' | 'F' => ofOption ((number? value).map p.writeFixed)
  | _ => .error .badPlace

end Place

/-! ## Filling a template -/

/-- Where the values of places come from: a list that is used up in order, or members by name. The
members as a whole also serve as one value. -/
inductive Arguments where
  | ordered (values : List Json)
  | named (members : List (String × Json)) (used : Bool)

namespace Arguments

def next (args : Arguments) (p : Place) : Except TemplateError (Json × Arguments) :=
  match args, p.member with
  | ordered (x :: rest), none => .ok (x, ordered rest)
  | ordered [], none => .error .tooFew
  | ordered _, some _ => .error .wrongKind
  | named members false, none => .ok (.obj members, named members true)
  | named _ true, none => .error .tooFew
  | named members used, some name =>
    match members.lookup (String.ofList name) with
    | some x => .ok (x, named members used)
    | none => .error .noMember

/-- Values that no place took are one too many; members need not be taken. -/
def finish : Arguments → Except TemplateError (List Char)
  | ordered (_ :: _) => .error .tooMany
  | _ => .ok []

end Arguments

def fillPieces : List (Option Piece) → Arguments → Except TemplateError (List Char)
  | [], args => args.finish
  | none :: _, _ => .error .badPlace
  | some (.text c) :: rest, args => (fillPieces rest args).map (c :: ·)
  | some (.place p) :: rest, args =>
    match args.next p with
    | .error e => .error e
    | .ok (value, args) =>
      match p.fill value with
      | .error e => .error e
      | .ok text => (fillPieces rest args).map (text ++ ·)

/-- The text of a line: one without arguments is no template, and a sole object with members gives
values by name. -/
def fillLine (template : String) (args : List Json) : Except TemplateError String :=
  let fill := fun args => (fillPieces (pieces template.toList) args).map String.ofList
  match args with
  | [] => .ok template
  | [.obj (m :: rest)] => fill (.named (m :: rest) false)
  | args => fill (.ordered args)

end Text
end WebhookDelivery
