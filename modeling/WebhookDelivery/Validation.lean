import WebhookDelivery.Integer
import WebhookDelivery.Json.Basic
import WebhookDelivery.Text.CaseMap
import WebhookDelivery.Text.Utf8
import WebhookDelivery.Time.Notation
import WebhookDelivery.Uuid

/-!
# WebhookDelivery.Validation

Reading typed records from JSON documents. A reader gives the value, or every fault of the document
with its place. Readers of the parts of a record are combined so that all their faults are found,
in the order in which the parts are declared.
-/

namespace WebhookDelivery

/-- A step from a document to one of its parts. -/
inductive Step where
  | member (name : String)
  | item (index : Nat)
  deriving DecidableEq, Repr

inductive Fault where
  | missing
  | extraForbidden
  | stringType
  | stringTooShort
  | stringUnicode
  | bytesType
  | intType
  | intParsing
  | intParsingSize
  | intFromFloat
  | finiteNumber
  | floatType
  | floatParsing
  | boolType
  | boolParsing
  | uuidType
  | uuidParsing
  | datetimeType
  | datetimeParsing
  | datetimeText
  | dictType
  | listType
  | setType
  | tooShort
  | enumMember
  | literal
  | greaterThan
  | greaterThanEqual
  | lessThanEqual
  | modelType
  | attributesType
  | frozenInstance
  | jsonInvalid
  | value (message : String)
  deriving DecidableEq, Repr

def Fault.code : Fault → String
  | .missing => "missing"
  | .extraForbidden => "extra_forbidden"
  | .stringType => "string_type"
  | .stringTooShort => "string_too_short"
  | .stringUnicode => "string_unicode"
  | .bytesType => "bytes_type"
  | .intType => "int_type"
  | .intParsing => "int_parsing"
  | .intParsingSize => "int_parsing_size"
  | .intFromFloat => "int_from_float"
  | .finiteNumber => "finite_number"
  | .floatType => "float_type"
  | .floatParsing => "float_parsing"
  | .boolType => "bool_type"
  | .boolParsing => "bool_parsing"
  | .uuidType => "uuid_type"
  | .uuidParsing => "uuid_parsing"
  | .datetimeType => "datetime_type"
  | .datetimeParsing => "datetime_parsing"
  | .datetimeText => "datetime_from_date_parsing"
  | .dictType => "dict_type"
  | .listType => "list_type"
  | .setType => "set_type"
  | .tooShort => "too_short"
  | .enumMember => "enum"
  | .literal => "literal_error"
  | .greaterThan => "greater_than"
  | .greaterThanEqual => "greater_than_equal"
  | .lessThanEqual => "less_than_equal"
  | .modelType => "model_type"
  | .attributesType => "model_attributes_type"
  | .frozenInstance => "frozen_instance"
  | .jsonInvalid => "json_invalid"
  | .value _ => "value_error"

/-- The wording of a fault that a rule of the domain found. -/
def Fault.message? : Fault → Option String
  | .value message => some ("Value error, " ++ message)
  | _ => none

structure LocatedFault where
  path : List Step
  fault : Fault
  deriving DecidableEq, Repr

/-- Why a record could not be built: its document has faults, or one of its times lies outside the
calendar when it is moved to universal time. -/
inductive RecordError where
  | invalid (faults : List LocatedFault)
  | time (e : TimeError)
  deriving DecidableEq, Repr

inductive Validated (α : Type) where
  | valid (x : α)
  | invalid (faults : List LocatedFault)

namespace Validated

variable {α β : Type}

def map (f : α → β) : Validated α → Validated β
  | valid x => valid (f x)
  | invalid faults => invalid faults

/-- Two readings side by side: the faults of the first stand before those of the second. -/
def seq (f : Validated (α → β)) (x : Validated α) : Validated β :=
  match f, x with
  | valid f, valid x => valid (f x)
  | valid _, invalid faults => invalid faults
  | invalid faults, valid _ => invalid faults
  | invalid faults, invalid more => invalid (faults ++ more)

instance : Functor Validated where
  map := map

instance : Seq Validated where
  seq f x := f.seq (x ())

def fail (fault : Fault) : Validated α := invalid [⟨[], fault⟩]

/-- The faults seen from the document of which the part was read. -/
def below (step : Step) : Validated α → Validated α
  | valid x => valid x
  | invalid faults => invalid (faults.map fun f => { f with path := step :: f.path })

/-- A further condition on a value that was read. -/
def andThen (x : Validated α) (check : α → Validated β) : Validated β :=
  match x with
  | valid x => check x
  | invalid faults => invalid faults

def require (ok : α → Bool) (fault : Fault) (x : Validated α) : Validated α :=
  x.andThen fun x => if ok x then valid x else fail fault

def toExcept : Validated α → Except RecordError α
  | valid x => .ok x
  | invalid faults => .error (.invalid faults)

/-- All of a list of readings, numbered from `index`. -/
def items (index : Nat) : List (Validated α) → Validated (List α)
  | [] => valid []
  | x :: rest => ((x.below (.item index)).map List.cons).seq (items (index + 1) rest)

def members : List (String × Validated α) → Validated (List (String × α))
  | [] => valid []
  | (name, x) :: rest =>
    ((x.below (.member name)).map fun x => List.cons (name, x)).seq (members rest)

end Validated

/-- A reader of one kind of value. -/
abbrev Reader (α : Type) := Json → Validated α

namespace Reader

open Validated

variable {α β : Type}

/-- A text, which may hold halves of surrogate pairs. -/
def looseText : Reader LooseText
  | .str s => valid (.ofString s)
  | .loose s => valid s
  | _ => fail .stringType

def text : Reader String
  | .str s => valid s
  | .loose _ => fail .stringUnicode
  | _ => fail .stringType

def textOfLength (least : Nat) : Reader String := fun j =>
  (text j).require (fun s => least ≤ s.length) .stringTooShort

/-- A text stands for its bytes in UTF-8. -/
def bytes : Reader Bytes
  | .str s => valid (Text.utf8String s)
  | .loose _ => fail .stringUnicode
  | _ => fail .bytesType

/-- Removes the underscores that stand alone between digits; nothing where one stands otherwise. -/
def dropUnderscores? : List Char → Option (List Char)
  | [] => some []
  | [c] => if c = '_' then none else some [c]
  | '_' :: _ => none
  | c :: '_' :: rest => (dropUnderscores? rest).bind fun rest =>
    if rest.isEmpty then none else some (c :: rest)
  | c :: rest => (dropUnderscores? rest).map (c :: ·)

/-- The digits of a whole number written with or without a point and zeros after it. -/
def wholeDigits? (s : List Char) : Option (List Char) :=
  let whole := s.takeWhile (· != '.')
  let fraction := (s.dropWhile (· != '.')).drop 1
  if fraction.all (· == '0') then
    match dropUnderscores? whole with
    | some (c :: digits) =>
      if (c :: digits).all Decimal.isDigit then some (c :: digits) else none
    | _ => none
  else none

def integerOfText (s : List Char) : Validated Int :=
  let s := Text.trimBy Integer.isOuterBlank s
  let (negative, s) :=
    match s with
    | '-' :: rest => (true, rest)
    | '+' :: rest => (false, rest)
    | _ => (false, s)
  match wholeDigits? s with
  | none => fail .intParsing
  | some digits =>
    let digits := digits.dropWhile (· == '0')
    if Integer.maxDigits < digits.length then fail .intParsingSize
    else
      let n : Int := Decimal.digitsValue digits
      valid (if negative then -n else n)

/-- Whole numbers in double precision are taken below this size. -/
def doubleLimit : Nat := Nat.pow 2 63

def integer : Reader Int
  | .int i => valid i
  | .bool b => valid (if b then 1 else 0)
  | .float x =>
    match Double.truncate? x with
    | none => fail .finiteNumber
    | some i =>
      if !Double.isIntegral x then fail .intFromFloat
      else if i.natAbs < doubleLimit then valid i else fail .intParsingSize
  | .str s => integerOfText s.toList
  | .loose _ => fail .stringUnicode
  | _ => fail .intType

def floatWord? (s : List Char) : Option Float :=
  match String.ofList (s.map Char.toLower) with
  | "inf" | "infinity" => some (1.0 / 0.0)
  | "nan" => some (0.0 / 0.0)
  | _ => none

def floatOfText (s : List Char) : Validated Float :=
  let s := Text.trimBy Integer.isOuterBlank s
  let (negative, s) :=
    match s with
    | '-' :: rest => (true, rest)
    | '+' :: rest => (false, rest)
    | _ => (false, s)
  let x? :=
    match floatWord? s with
    | some x => some x
    | none =>
      match (dropUnderscores? s).bind Decimal.readUnsigned? with
      | some (d, []) => some (Decimal.ofDigits d)
      | _ => none
  match x? with
  | some x => valid (if negative then -x else x)
  | none => fail .floatParsing

def float : Reader Float
  | .float x => valid x
  | .int i =>
    match Double.ofInt? i with
    | some x => valid x
    | none => fail .floatType
  | .bool b => valid (if b then 1.0 else 0.0)
  | .str s => floatOfText s.toList
  | .loose _ => fail .stringUnicode
  | _ => fail .floatType

def boolean : Reader Bool
  | .bool b => valid b
  | .int i => if i = 0 then valid false else if i = 1 then valid true else fail .boolParsing
  | .float x =>
    if Double.isIntegral x then
      if x == 0.0 then valid false else if x == 1.0 then valid true else fail .boolParsing
    else fail .boolType
  | .str s =>
    match String.ofList (s.toList.map Char.toLower) with
    | "0" | "f" | "false" | "n" | "no" | "off" => valid false
    | "1" | "t" | "true" | "y" | "yes" | "on" => valid true
    | _ => fail .boolParsing
  | .loose _ => fail .stringUnicode
  | _ => fail .boolType

def uuid : Reader Uuid
  | .str s =>
    match Uuid.read? s.toList with
    | some u => valid u
    | none => fail .uuidParsing
  | .loose _ => fail .stringUnicode
  | _ => fail .uuidType

def time : Reader ClockTime
  | .str s =>
    match ClockTime.read? s.toList with
    | some t => valid t
    | none => fail .datetimeText
  | .int i =>
    match ClockTime.ofInt? i with
    | some t => valid t
    | none => fail .datetimeParsing
  | .float x =>
    match ClockTime.ofFloat? x with
    | some t => valid t
    | none => fail .datetimeParsing
  | .loose _ => fail .stringUnicode
  | _ => fail .datetimeType

def nullable (read : Reader α) : Reader (Option α)
  | .null => valid none
  | j => (read j).map some

def list (read : Reader α) : Reader (List α)
  | .arr xs => items 0 (xs.map read)
  | _ => fail .listType

/-- A list of distinct texts in increasing order, however they were written. -/
def insertText (s : String) : List String → List String
  | [] => [s]
  | t :: rest => if s = t then t :: rest else if s < t then s :: t :: rest else t :: insertText s rest

def textSet : Reader (List String)
  | .arr xs => (items 0 (xs.map text)).map fun xs => xs.foldl (fun set s => insertText s set) []
  | _ => fail .setType

def dictionary (read : Reader α) : Reader (List (String × α))
  | .obj entries => members (entries.map fun e => (e.1, read e.2))
  | _ => fail .dictType

/-- Any document as it is. -/
def anything : Reader Json := valid

/-- One of the values named by texts. -/
def oneOf (choices : List (String × α)) (fault : Fault) : Reader α
  | .str s =>
    match choices.find? (·.1 == s) with
    | some (_, x) => valid x
    | none => fail fault
  | .loose _ => fail .stringUnicode
  | _ => fail fault

/-- The member of a name, which must be present. -/
def required (members : List (String × Json)) (name : String) (read : Reader α) : Validated α :=
  match members.find? (·.1 == name) with
  | some (_, j) => (read j).below (.member name)
  | none => (fail .missing).below (.member name)

/-- The member of a name, or a value that stands in for it. -/
def withDefault (members : List (String × Json)) (name : String) (standIn : α) (read : Reader α) :
    Validated α :=
  match members.find? (·.1 == name) with
  | some (_, j) => (read j).below (.member name)
  | none => valid standIn

/-- The members with names other than those given, each of them a fault. -/
def noOthers (members : List (String × Json)) (names : List String) : Validated Unit :=
  match members.filter fun m => !names.contains m.1 with
  | [] => valid ()
  | others => invalid (others.map fun m => ⟨[.member m.1], .extraForbidden⟩)

/-- A record read from the members of an object. -/
def record (read : List (String × Json) → Validated α) : Reader α
  | .obj members => read members
  | _ => fail .modelType

/-- A record that has no members besides those of the given names. -/
def closedRecord (names : List String) (read : List (String × Json) → Validated α) : Reader α :=
  record fun members => ((read members).map fun x _ => x).seq (noOthers members names)

end Reader
end WebhookDelivery
