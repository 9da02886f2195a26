/-!
# WebhookDelivery.Double

Double-precision numbers taken apart into exact integers and put together again. What the program
decides about a duration or a clock reading is decided here in integer arithmetic; the machine's own
operations serve only where a rounded sum, product or quotient is meant.

* `decode?`: a finite number as `± mantissa · 2 ^ exponent`.
* `nearest`: the number nearest to a quotient of naturals, ties to even.
* `truncate?`, `compareInt?`: the integer part, and the order against an integer, without rounding.
-/

namespace WebhookDelivery

/-- The number `mantissa · 2 ^ exponent`, negated where `negative`. -/
structure Dyadic where
  negative : Bool
  mantissa : Nat
  exponent : Int
  deriving DecidableEq, Repr

namespace Double

/-- A quotient rounded to the nearest natural, a half to the even neighbour. -/
def roundHalfEven (num den : Nat) : Nat :=
  let q := num / den
  let r := num % den
  if 2 * r < den then q
  else if den < 2 * r then q + 1
  else if q % 2 = 0 then q else q + 1

/-- A finite number taken apart; nothing for the infinities and for what is not a number. -/
def decode? (x : Float) : Option Dyadic :=
  let bits : Nat := x.toBits.toNat
  let biased : Nat := bits / Nat.pow 2 52 % Nat.pow 2 11
  let fraction : Nat := bits % Nat.pow 2 52
  let negative := bits / Nat.pow 2 63 = 1
  if biased = 2047 then none
  else if biased = 0 then some ⟨negative, fraction, -1074⟩
  else some ⟨negative, Nat.pow 2 52 + fraction, (biased : Int) - 1075⟩

/-- The exponent of the unit in which a quotient between `2 ^ e` and `2 ^ (e + 2)` is rounded. -/
def unitExponent (num den : Nat) : Int :=
  let e : Int := (num.log2 : Int) - den.log2 - 52
  let small :=
    if 0 ≤ e then num < den * Nat.pow 2 (52 + e.toNat)
    else num * Nat.pow 2 (-e).toNat < den * Nat.pow 2 52
  max (if small then e - 1 else e) (-1074)

/-- The bits of the nonnegative number nearest to `num / den`; infinity where it is too large. -/
def nearestBits (num den : Nat) : Nat :=
  if num = 0 ∨ den = 0 then 0
  else
    let e := unitExponent num den
    let mantissa :=
      if 0 ≤ e then roundHalfEven num (den * Nat.pow 2 e.toNat)
      else roundHalfEven (num * Nat.pow 2 (-e).toNat) den
    min ((e + 1074).toNat * Nat.pow 2 52 + mantissa) (2047 * Nat.pow 2 52)

def nearest (num den : Nat) : Float := Float.ofBits (UInt64.ofNat (nearestBits num den))

/-- The number nearest to an integer; nothing where it is too large to have one. -/
def ofInt? (i : Int) : Option Float :=
  let bits := nearestBits i.natAbs 1
  if bits = 2047 * Nat.pow 2 52 then none
  else
    let x := Float.ofBits (UInt64.ofNat bits)
    some (if i < 0 then -x else x)

/-- The number nearest to a quotient of an integer by a positive natural. -/
def ofRatio (num : Int) (den : Nat) : Float :=
  let x := nearest num.natAbs den
  if num < 0 then -x else x

/-- The magnitude of a finite number, cut to an integer. -/
def Dyadic.floorAbs (d : Dyadic) : Nat :=
  if 0 ≤ d.exponent then d.mantissa * Nat.pow 2 d.exponent.toNat
  else d.mantissa / Nat.pow 2 (-d.exponent).toNat

/-- The integer part, cut toward zero; nothing for a number that is not finite. -/
def truncate? (x : Float) : Option Int :=
  (decode? x).map fun d =>
    if d.negative then -(Dyadic.floorAbs d : Int) else (Dyadic.floorAbs d : Int)

/-- A finite number has no fraction. -/
def isIntegral (x : Float) : Bool :=
  match decode? x with
  | none => false
  | some d => 0 ≤ d.exponent || d.mantissa % Nat.pow 2 (-d.exponent).toNat == 0

/-- How a finite number stands to an integer, without rounding either. -/
def Dyadic.compareInt (d : Dyadic) (i : Int) : Ordering :=
  let m : Int := if d.negative then -(d.mantissa : Int) else d.mantissa
  if 0 ≤ d.exponent then compare (m * Nat.pow 2 d.exponent.toNat) i
  else compare m (i * Nat.pow 2 (-d.exponent).toNat)

/-- How a number stands to an integer; nothing for what is not a number. -/
def compareInt? (x : Float) (i : Int) : Option Ordering :=
  match decode? x with
  | some d => some (Dyadic.compareInt d i)
  | none => if x.isNaN then none else some (if x < 0 then .lt else .gt)

/-- A finite number rounded to the nearest integer, a half to the even neighbour. -/
def roundToInt? (x : Float) : Option Int :=
  (decode? x).map fun d =>
    let n := if 0 ≤ d.exponent then d.mantissa * Nat.pow 2 d.exponent.toNat
      else roundHalfEven d.mantissa (Nat.pow 2 (-d.exponent).toNat)
    if d.negative then -(n : Int) else (n : Int)

end Double
end WebhookDelivery
