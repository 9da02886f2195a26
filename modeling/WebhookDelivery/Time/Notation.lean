import WebhookDelivery.Integer
import WebhookDelivery.Decimal
import WebhookDelivery.Text.Utf8
import WebhookDelivery.Time.ClockFace

/-!
# WebhookDelivery.Time.Notation

Times in text. Reading takes a date, then optionally a time of day with fractions of a second and
the distance from universal time, or else a number of seconds since 1970, which counts milliseconds
when it is large. Writing has one form for messages and logs and one for documents.
-/

namespace WebhookDelivery
namespace ClockTime

/-- A number of exactly `width` digits at the head of a text, and what follows it. -/
def readFixed? : (width : Nat) → (value : Nat) → List Char → Option (Nat × List Char)
  | 0, value, s => some (value, s)
  | _ + 1, _, [] => none
  | width + 1, value, c :: rest =>
    if Decimal.isDigit c then readFixed? width (10 * value + (c.toNat - 48)) rest else none

/-- A character at the head of a text that is one of `marks`, removed. -/
def readMark? (marks : List Char) : List Char → Option (List Char)
  | c :: rest => if marks.contains c then some rest else none
  | [] => none

/-- `YYYY-MM-DD`. -/
def readDate? (s : List Char) : Option (Date × List Char) := do
  let (year, s) ← readFixed? 4 0 s
  let s ← readMark? ['-'] s
  let (month, s) ← readFixed? 2 0 s
  let s ← readMark? ['-'] s
  let (day, s) ← readFixed? 2 0 s
  let date : Date := ⟨year, month, day⟩
  if 1 ≤ year ∧ date.isValid then some (date, s) else none

/-- The digits of a fraction in microseconds, those after the sixth cut off. -/
def fractionMicros (digits : List Char) : Nat :=
  Decimal.digitsValue ((digits ++ List.replicate 6 '0').take 6)

/-- `SS[.fraction]`, in seconds and microseconds. -/
def readSecond? (s : List Char) : Option (Nat × Nat × List Char) := do
  let (second, s) ← readFixed? 2 0 s
  match readMark? ['.', ','] s with
  | none => some (second, 0, s)
  | some s =>
    let digits := s.takeWhile Decimal.isDigit
    if digits.isEmpty then none
    else some (second, fractionMicros digits, s.dropWhile Decimal.isDigit)

/-- `HH:MM[:SS[.fraction]]`, on a date. -/
def readTimeOfDay? (date : Date) (s : List Char) : Option (ClockFace × List Char) := do
  let (hour, s) ← readFixed? 2 0 s
  let s ← readMark? [':'] s
  let (minute, s) ← readFixed? 2 0 s
  let (second, micro, s) ←
    match readMark? [':'] s with
    | none => some (0, 0, s)
    | some s => readSecond? s
  if 23 < hour ∨ 59 < minute ∨ 59 < second then none
  else some (⟨date, hour, minute, second, micro⟩, s)

/-- `Z` or `±HH:MM` with an optional colon, and `:SS[.fraction]` where `seconds` allows it; in
microseconds. -/
def readOffset? (seconds : Bool) (s : List Char) : Option (Int × List Char) := do
  match s with
  | [] => none
  | c :: rest =>
    if c = 'Z' ∨ c = 'z' then some (0, rest)
    else
      let negative ←
        if c = '+' then some false
        else if c = '-' ∨ c.toNat = 0x2212 then some true else none
      let (hours, s) ← readFixed? 2 0 rest
      let s := (readMark? [':'] s).getD s
      let (minutes, s) ← readFixed? 2 0 s
      let (second, micro, s) ←
        match seconds, readMark? [':'] s with
        | true, some s => readSecond? s
        | _, _ => some (0, 0, s)
      let total : Int := (hours * 3600 + minutes * 60 + second : Nat) * microsPerSecond + micro
      if 59 < minutes ∨ microsPerDay ≤ total then none
      else some (if negative then -total else total, s)

/-- A date with or without a time of day; a date alone is the beginning of its day. -/
def readCalendar? (seconds : Bool) (s : List Char) : Option ClockTime := do
  let (date, s) ← readDate? s
  match s with
  | [] => some (shown ⟨date, 0, 0, 0, 0⟩ none)
  | _ =>
    let s ← readMark? ['T', 't', ' ', '_'] s
    let (face, s) ← readTimeOfDay? date s
    match s with
    | [] => some (shown face none)
    | _ =>
      let (offset, s) ← readOffset? seconds s
      if s.isEmpty then some (shown face (some offset)) else none

/-- Seconds above this count milliseconds. -/
def secondsLimit : Nat := 20000000000

/-- The beginning of the year 1600, the earliest time that a number stands for. -/
def earliestNumber : Int := -11676096000000000

def ofNumber? (micros : Int) : Option ClockTime :=
  if earliestNumber ≤ micros ∧ micros ≤ latest then some (utc micros) else none

def ofInt? (n : Int) : Option ClockTime :=
  ofNumber? (if secondsLimit < n.natAbs then n * 1000 else n * microsPerSecond)

/-- A number with a fraction, rounded to the microsecond. -/
def ofFloat? (x : Float) : Option ClockTime :=
  let x := if Double.compareInt? x.abs secondsLimit == some .gt then x / 1000.0 else x
  match Double.truncate? x.floor with
  | none => none
  | some whole =>
    match Double.roundToInt? ((x - x.floor) * 1000000.0) with
    | none => none
    | some rest => ofNumber? (whole * microsPerSecond + rest)

/-- A text that is a number as a whole. -/
def readNumber? (s : List Char) : Option ClockTime :=
  let (negative, s) :=
    match s with
    | '-' :: rest => (true, rest)
    | '+' :: rest => (false, rest)
    | _ => (false, s)
  match Decimal.readUnsigned? s with
  | some (d, []) =>
    if s.all Decimal.isDigit then
      ofInt? (if negative then -(d.digits : Int) else d.digits)
    else
      let x := Decimal.ofDigits d
      ofFloat? (if negative then -x else x)
  | _ => none

def read? (s : List Char) : Option ClockTime :=
  match readCalendar? false s with
  | some t => some t
  | none => readNumber? s

/-- A number in at least `width` digits. -/
def padded (width : Nat) (n : Nat) : String :=
  let text := toString n
  String.ofList (List.replicate (width - text.length) '0') ++ text

/-- Six digits of a second after a point, if they are not all zero. -/
def writeFraction (micro : Nat) : String := if micro = 0 then "" else "." ++ padded 6 micro

/-- `YYYY-MM-DDTHH:MM:SS`, and the fraction of the second if there is any. -/
def writeFace (f : ClockFace) : String :=
  padded 4 f.date.year.toNat ++ "-" ++ padded 2 f.date.month ++ "-" ++ padded 2 f.date.day ++ "T" ++
    padded 2 f.hour ++ ":" ++ padded 2 f.minute ++ ":" ++ padded 2 f.second ++ writeFraction f.micro

/-- `±HH:MM`, and the seconds and their fraction if there are any. -/
def writeOffset (offset : Int) : String :=
  let n := offset.natAbs / 1000000
  let micro := offset.natAbs % 1000000
  (if offset < 0 then "-" else "+") ++ padded 2 (n / 3600) ++ ":" ++ padded 2 (n / 60 % 60) ++
    (if n % 60 = 0 ∧ micro = 0 then "" else ":" ++ padded 2 (n % 60) ++ writeFraction micro)

/-- The form of messages and logs. -/
def write (t : ClockTime) : String :=
  writeFace t.face ++
    match t.offset with
    | none => ""
    | some offset => writeOffset offset

/-- The form of documents, in which universal time is marked by a `Z`. -/
def writeDocument (t : ClockTime) : String :=
  writeFace t.face ++
    match t.offset with
    | none => ""
    | some offset => if offset = 0 then "Z" else writeOffset offset

end ClockTime
end WebhookDelivery
