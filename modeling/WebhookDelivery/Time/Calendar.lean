/-!
# WebhookDelivery.Time.Calendar

The Gregorian calendar, extended to all years, as a count of days from the first of January 1970.
Years are counted from March inside a cycle of four centuries, so that the leap day ends its year.
-/

namespace WebhookDelivery

structure Date where
  year : Int
  month : Nat
  day : Nat
  deriving DecidableEq, Repr

namespace Date

def isLeapYear (year : Int) : Bool :=
  year % 4 == 0 && (year % 100 != 0 || year % 400 == 0)

def daysInMonth (year : Int) (month : Nat) : Nat :=
  if month = 2 then (if isLeapYear year then 29 else 28)
  else if month = 4 ∨ month = 6 ∨ month = 9 ∨ month = 11 then 30
  else 31

def isValid (d : Date) : Bool :=
  1 ≤ d.month && d.month ≤ 12 && 1 ≤ d.day && d.day ≤ daysInMonth d.year d.month

/-- The days from the first of January 1970 to a date. -/
def toDays (d : Date) : Int :=
  let year := if d.month ≤ 2 then d.year - 1 else d.year
  let month : Int := (d.month + 9) % 12
  let cycle := year.fdiv 400
  let yearOfCycle := year.fmod 400
  let dayOfYear := (153 * month + 2) / 5 + d.day - 1
  cycle * 146097 + yearOfCycle * 365 + yearOfCycle / 4 - yearOfCycle / 100 + dayOfYear - 719468

def ofDays (days : Int) : Date :=
  let n := days + 719468
  let cycle := n.fdiv 146097
  let dayOfCycle := n.fmod 146097
  let yearOfCycle :=
    (dayOfCycle - dayOfCycle / 1460 + dayOfCycle / 36524 - dayOfCycle / 146096) / 365
  let dayOfYear := dayOfCycle - (365 * yearOfCycle + yearOfCycle / 4 - yearOfCycle / 100)
  let month := (5 * dayOfYear + 2) / 153
  let day := dayOfYear - (153 * month + 2) / 5 + 1
  let monthOfYear := if month < 10 then month + 3 else month - 9
  let year := yearOfCycle + cycle * 400 + (if monthOfYear ≤ 2 then 1 else 0)
  ⟨year, monthOfYear.toNat, day.toNat⟩

end Date
end WebhookDelivery
