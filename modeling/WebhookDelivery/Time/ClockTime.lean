import WebhookDelivery.Double
import WebhookDelivery.Time.Calendar

/-!
# WebhookDelivery.Time.ClockTime

Readings of a calendar clock in microseconds, with the distance of the clock from universal time
where it is known. A reading lies in the years 1 to 9999.

* `micros`: the instant of a reading in microseconds since 1970, a clock of unknown distance taken
  to show universal time. This is the form in which times are stored.
* `ofMicros?`: the reading of a universal clock at an instant.
* `addSeconds?`: a reading moved by a number of seconds in double precision.
-/

namespace WebhookDelivery

/-- `reading` counts the microseconds since the beginning of 1970 as the clock shows them, and
`offset` those by which the clock is ahead of universal time. -/
structure ClockTime where
  reading : Int
  offset : Option Int
  deriving DecidableEq, Repr

inductive TimeError where
  | outOfRange
  | unordered
  deriving DecidableEq, Repr

namespace ClockTime

def microsPerSecond : Int := 1000000

def microsPerDay : Int := 86400000000

/-- The beginning of the year 1. -/
def earliest : Int := -62135596800000000

/-- The last microsecond of the year 9999. -/
def latest : Int := 253402300799999999

def inRange (reading : Int) : Bool := earliest ≤ reading && reading ≤ latest

def utc (micros : Int) : ClockTime := ⟨micros, some 0⟩

def isAware (t : ClockTime) : Bool := t.offset.isSome

/-- Microseconds since 1970 of the instant. -/
def micros (t : ClockTime) : Int := t.reading - t.offset.getD 0

def ofMicros? (micros : Int) : Except TimeError ClockTime :=
  if inRange micros then .ok (utc micros) else .error .outOfRange

/-- The same instant on a universal clock. -/
def toUtc? (t : ClockTime) : Except TimeError ClockTime := ofMicros? t.micros

/-- One reading is later than another. Readings of clocks of known and of unknown distance have no
order. -/
def isAfter? (a b : ClockTime) : Except TimeError Bool :=
  if a.isAware == b.isAware then .ok (b.micros < a.micros) else .error .unordered

/-- The longest duration, in days. -/
def maxDays : Nat := 999999999

/-- A number of seconds in whole microseconds: its integer part exactly, and its fraction, as a
double-precision number of microseconds, rounded with a half going to the even neighbour. -/
def microsOfSeconds? (seconds : Float) : Except TimeError Int :=
  match Double.truncate? seconds with
  | none => .error .outOfRange
  | some whole =>
    if maxDays * 86400 < whole.natAbs then .error .outOfRange
    else
      let fraction := seconds - (Double.ofInt? whole).getD 0.0
      match Double.roundToInt? (fraction * 1000000.0) with
      | none => .error .outOfRange
      | some rest =>
        let total := whole * microsPerSecond + rest
        let days := total.fdiv microsPerDay
        if maxDays < days.natAbs then .error .outOfRange else .ok total

def addMicros? (t : ClockTime) (micros : Int) : Except TimeError ClockTime :=
  if inRange (t.reading + micros) then .ok { t with reading := t.reading + micros }
  else .error .outOfRange

def addSeconds? (t : ClockTime) (seconds : Float) : Except TimeError ClockTime :=
  match microsOfSeconds? seconds with
  | .ok micros => t.addMicros? micros
  | .error e => .error e

/-- Whole seconds since 1970 of an instant, as its nearest double-precision number cut to an
integer. -/
def unixSeconds (micros : Int) : Int :=
  (Double.truncate? (Double.ofRatio micros 1000000)).getD 0

end ClockTime
end WebhookDelivery
