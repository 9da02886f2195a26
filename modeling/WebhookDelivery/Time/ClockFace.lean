import WebhookDelivery.Time.ClockTime

/-!
# WebhookDelivery.Time.ClockFace

What a calendar clock shows: a date and the time of its day to the microsecond.

* `reading`: what is shown as a count of microseconds, the form in which a `ClockTime` keeps it.
* `ofReading`: what is shown at a reading.
-/

namespace WebhookDelivery

structure ClockFace where
  date : Date
  hour : Nat
  minute : Nat
  second : Nat
  micro : Nat
  deriving DecidableEq, Repr

namespace ClockFace

def isValid (f : ClockFace) : Bool :=
  f.date.isValid && f.hour ≤ 23 && f.minute ≤ 59 && f.second ≤ 59 && f.micro ≤ 999999

/-- The microseconds since the beginning of the day. -/
def microOfDay (f : ClockFace) : Nat :=
  ((f.hour * 60 + f.minute) * 60 + f.second) * 1000000 + f.micro

def reading (f : ClockFace) : Int := f.date.toDays * ClockTime.microsPerDay + f.microOfDay

def ofReading (reading : Int) : ClockFace :=
  let time := (reading.fmod ClockTime.microsPerDay).toNat
  let seconds := time / 1000000
  ⟨.ofDays (reading.fdiv ClockTime.microsPerDay), seconds / 3600, seconds / 60 % 60, seconds % 60,
    time % 1000000⟩

end ClockFace

namespace ClockTime

/-- What the clock shows. -/
def face (t : ClockTime) : ClockFace := .ofReading t.reading

/-- The time of a clock that shows `f` and is ahead of universal time by `offset` microseconds. -/
def shown (f : ClockFace) (offset : Option Int) : ClockTime := ⟨f.reading, offset⟩

end ClockTime
end WebhookDelivery
