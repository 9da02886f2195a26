import WebhookDelivery.Double

/-!
# WebhookDelivery.Decimal

Decimal texts of double-precision numbers. A number is written with the fewest digits that read
back as the same number, and of those the nearest to it. A decimal literal is read as the nearest
number.
-/

namespace WebhookDelivery
namespace Decimal

/-- The decimal `digits · 10 ^ exponent`. -/
structure Digits where
  digits : Nat
  exponent : Int
  deriving DecidableEq, Repr

/-- A positive quotient of naturals. -/
structure Ratio where
  num : Nat
  den : Nat

def Ratio.ofScaled (m : Nat) (base : Nat) (e : Int) : Ratio :=
  if 0 ≤ e then ⟨m * Nat.pow base e.toNat, 1⟩ else ⟨m, Nat.pow base (-e).toNat⟩

def Ratio.le (a b : Ratio) : Bool := a.num * b.den ≤ b.num * a.den

def Ratio.lt (a b : Ratio) : Bool := a.num * b.den < b.num * a.den

/-- The reals that read as one number: between `low` and `high`, which belong to it if `closed`. -/
structure Interval where
  low : Ratio
  high : Ratio
  closed : Bool

def Interval.contains (i : Interval) (r : Ratio) : Bool :=
  if i.closed then i.low.le r && r.le i.high else i.low.lt r && r.lt i.high

/-- The reals nearer to `m · 2 ^ e` than to its neighbours. Below a power of two the neighbours lie
half as far apart, and a tie belongs to the even mantissa. -/
def Interval.around (m : Nat) (e : Int) : Interval where
  low := Ratio.ofScaled (if m = Nat.pow 2 52 ∧ -1074 < e then 4 * m - 1 else 4 * m - 2) 2 (e - 2)
  high := Ratio.ofScaled (4 * m + 2) 2 (e - 2)
  closed := m % 2 = 0

/-- The number of digits before the decimal point; zero or less for a quotient below a tenth. -/
def Ratio.magnitude (r : Ratio) : Int :=
  if r.den ≤ r.num then ((Nat.toDigits 10 (r.num / r.den)).length : Int)
  else
    match (List.range 400).find? fun j => r.den ≤ r.num * Nat.pow 10 j with
    | some j => 1 - (j : Int)
    | none => -399

/-- The distance between two quotients, over the product of their denominators. -/
def Ratio.distance (a b : Ratio) : Ratio :=
  let x := a.num * b.den
  let y := b.num * a.den
  ⟨if x ≤ y then y - x else x - y, a.den * b.den⟩

/-- The point of the grid of `count` digits that lies in the interval, the nearer of two, the even
one of a tie. -/
def onGrid? (value : Ratio) (i : Interval) (count : Nat) : Option Digits :=
  let e := value.magnitude - count
  let scaled : Ratio :=
    if 0 ≤ e then ⟨value.num, value.den * Nat.pow 10 e.toNat⟩
    else ⟨value.num * Nat.pow 10 (-e).toNat, value.den⟩
  let floor := scaled.num / scaled.den
  let below := Ratio.ofScaled floor 10 e
  let above := Ratio.ofScaled (floor + 1) 10 e
  let nearerBelow :=
    (value.distance below).lt (value.distance above) ||
      (!(value.distance above).lt (value.distance below) && floor % 2 == 0)
  match 0 < floor && i.contains below, i.contains above with
  | true, true => some ⟨if nearerBelow then floor else floor + 1, e⟩
  | true, false => some ⟨floor, e⟩
  | false, true => some ⟨floor + 1, e⟩
  | false, false => none

/-- The fewest digits that read back as `m · 2 ^ e`. -/
def shortest (m : Nat) (e : Int) : Digits :=
  let value := Ratio.ofScaled m 2 e
  let i := Interval.around m e
  ((List.range 17).findSome? fun n => onGrid? value i (n + 1)).getD ⟨m, 0⟩

/-- Positional notation serves numbers from `10 ^ -4` up to `10 ^ 16`; others are written with an
exponent of at least two digits. -/
def Digits.write (d : Digits) : String :=
  let text := toString d.digits
  let point : Int := text.length + d.exponent
  if -4 < point ∧ point ≤ 16 then
    if point ≤ 0 then "0." ++ String.ofList (List.replicate (-point).toNat '0') ++ text
    else if text.length ≤ point.toNat then
      text ++ String.ofList (List.replicate (point.toNat - text.length) '0') ++ ".0"
    else
      String.ofList (text.toList.take point.toNat) ++ "." ++
        String.ofList (text.toList.drop point.toNat)
  else
    let mantissa :=
      match text.toList with
      | [c] => String.ofList [c]
      | c :: rest => String.ofList (c :: '.' :: rest)
      | [] => ""
    let e := (point - 1).natAbs
    mantissa ++ "e" ++ (if point - 1 < 0 then "-" else "+") ++ (if e < 10 then "0" else "") ++
      toString e

/-- The digits without the zeros at their end. -/
def Digits.normalize (d : Digits) : Digits :=
  let text := (toString d.digits).toList
  let zeros := (text.reverse.takeWhile (· == '0')).length
  if d.digits = 0 then ⟨0, 0⟩ else ⟨d.digits / Nat.pow 10 zeros, d.exponent + zeros⟩

/-- The text of a number; zero is written with its sign. -/
def write (x : Float) : String :=
  match Double.decode? x with
  | none => if x.isNaN then "nan" else if x < 0 then "-inf" else "inf"
  | some d =>
    (if d.negative then "-" else "") ++
      (if d.mantissa = 0 then "0.0" else (shortest d.mantissa d.exponent).normalize.write)

/-- The number nearest to `digits · 10 ^ exponent`. Exponents that leave no digit in range are
settled by the length of the digits. -/
def ofDigits (d : Digits) : Float :=
  let length : Int := (toString d.digits).length
  if d.digits = 0 then 0.0
  else if 400 < length + d.exponent then Double.nearest (Nat.pow 2 1025) 1
  else if length + d.exponent < -400 then 0.0
  else if 0 ≤ d.exponent then Double.nearest (d.digits * Nat.pow 10 d.exponent.toNat) 1
  else Double.nearest d.digits (Nat.pow 10 (-d.exponent).toNat)

def isDigit (c : Char) : Bool := '0' ≤ c && c ≤ '9'

/-- The number that a text of digits writes. -/
def digitsValue (cs : List Char) : Nat := cs.foldl (fun n c => 10 * n + (c.toNat - 48)) 0

/-- Reads `digits[.digits][(e|E)[+|-]digits]`, where the digits on one side of the point may be
missing, and gives what follows. -/
def readUnsigned? (s : List Char) : Option (Digits × List Char) :=
  let whole := s.takeWhile isDigit
  let s := s.dropWhile isDigit
  let (fraction, s) :=
    match s with
    | '.' :: rest => (rest.takeWhile isDigit, rest.dropWhile isDigit)
    | _ => ([], s)
  if whole.isEmpty && fraction.isEmpty then none
  else
    let mantissa := digitsValue (whole ++ fraction)
    let shift : Int := fraction.length
    let exponent? : Option (Int × List Char) :=
      match s with
      | c :: rest =>
        if c = 'e' ∨ c = 'E' then
          let (negative, rest) :=
            match rest with
            | '-' :: rest => (true, rest)
            | '+' :: rest => (false, rest)
            | _ => (false, rest)
          let digits := rest.takeWhile isDigit
          if digits.isEmpty then none
          else
            some (if negative then -(digitsValue digits : Int) else digitsValue digits,
              rest.dropWhile isDigit)
        else none
      | [] => none
    match exponent? with
    | some (e, rest) => some (⟨mantissa, e - shift⟩, rest)
    | none => some (⟨mantissa, -shift⟩, s)

end Decimal
end WebhookDelivery
