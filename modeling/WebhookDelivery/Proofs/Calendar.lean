import Mathlib
import WebhookDelivery.Time.Calendar

/-!
# WebhookDelivery.Proofs.Calendar

The count of days against the calendar itself, which turns over from one date to the next by the
lengths of the months.

* `next`, `previous`, `Before`: the neighbours of a date and the order of dates.
* `toDays_next`, `toDays_previous`: the count goes up and down by one with the date.
* `Before.toDays_lt`: it is in the order of dates.
* `isValid_ofDays`, `toDays_ofDays`: every count is that of a date.
-/

namespace WebhookDelivery
namespace Date

/-- The day after. -/
def next (d : Date) : Date :=
  if d.day < daysInMonth d.year d.month then ⟨d.year, d.month, d.day + 1⟩
  else if d.month < 12 then ⟨d.year, d.month + 1, 1⟩
  else ⟨d.year + 1, 1, 1⟩

/-- The day before. -/
def previous (d : Date) : Date :=
  if 1 < d.day then ⟨d.year, d.month, d.day - 1⟩
  else if 1 < d.month then ⟨d.year, d.month - 1, daysInMonth d.year (d.month - 1)⟩
  else ⟨d.year - 1, 12, 31⟩

/-- Earlier in the calendar: by the year, then by the month, then by the day. -/
def Before (a b : Date) : Prop :=
  a.year < b.year ∨ a.year = b.year ∧ (a.month < b.month ∨ a.month = b.month ∧ a.day < b.day)

theorem isValid_iff {d : Date} :
    d.isValid ↔ 1 ≤ d.month ∧ d.month ≤ 12 ∧ 1 ≤ d.day ∧ d.day ≤ daysInMonth d.year d.month := by
  simp [isValid, and_assoc]

theorem isValid_mk {year : Int} {month day : Nat} : (mk year month day).isValid ↔
    1 ≤ month ∧ month ≤ 12 ∧ 1 ≤ day ∧ day ≤ daysInMonth year month := isValid_iff

theorem isLeapYear_iff {year : Int} :
    isLeapYear year ↔ year % 4 = 0 ∧ (year % 100 ≠ 0 ∨ year % 400 = 0) := by
  simp [isLeapYear]

theorem daysInMonth_february (year : Int) :
    daysInMonth year 2 = if isLeapYear year then 29 else 28 := rfl

theorem daysInMonth_pos (year : Int) (month : Nat) : 1 ≤ daysInMonth year month := by
  unfold daysInMonth
  split_ifs <;> decide

theorem daysInMonth_le (year : Int) (month : Nat) : daysInMonth year month ≤ 31 := by
  unfold daysInMonth
  split_ifs <;> decide

/-- The leap days of the years up to one. -/
def leapDays (year : Int) : Int := year / 4 - year / 100 + year / 400

theorem leapDays_eq (year : Int) :
    leapDays year = leapDays (year - 1) + if isLeapYear year then 1 else 0 := by
  have hleap := @isLeapYear_iff year
  unfold leapDays
  split_ifs with h
  · obtain ⟨hfour, hhundred⟩ := hleap.mp h
    omega
  · have hnot := hleap.not.mp h
    omega

/-- Years are counted from March, so that a leap day is the last day of its year. -/
theorem toDays_eq (d : Date) :
    d.toDays = (let year := if d.month ≤ 2 then d.year - 1 else d.year
      365 * year + leapDays year) + (153 * ((d.month + 9) % 12 : Int) + 2) / 5 + d.day - 719469 := by
  have hcycle : ∀ year : Int, year.fdiv 400 * 146097 + year.fmod 400 * 365 + year.fmod 400 / 4 -
      year.fmod 400 / 100 = 365 * year + leapDays year := by
    intro year
    rw [Int.fdiv_eq_ediv_of_nonneg year (by decide), Int.fmod_eq_emod_of_nonneg year (by decide)]
    unfold leapDays
    omega
  rw [toDays]
  dsimp only
  rw [hcycle]
  omega

/-! ## Months -/

/-- The days up to the `k`-th month after the year 0 has begun. -/
def monthStart (k : Int) : Int := toDays ⟨k / 12, (k % 12).toNat + 1, 1⟩

/-- The number of the month of a date. -/
def monthIndex (d : Date) : Int := 12 * d.year + d.month - 1

theorem monthIndex_div {d : Date} (h : d.isValid) : d.monthIndex / 12 = d.year := by
  obtain ⟨hfirst, hlast, -, -⟩ := isValid_iff.mp h
  unfold monthIndex
  omega

theorem monthIndex_mod {d : Date} (h : d.isValid) : (d.monthIndex % 12).toNat + 1 = d.month := by
  obtain ⟨hfirst, hlast, -, -⟩ := isValid_iff.mp h
  unfold monthIndex
  omega

theorem toDays_eq_monthStart {d : Date} (h : d.isValid) :
    d.toDays = monthStart d.monthIndex + d.day - 1 := by
  simp only [monthStart, toDays_eq, monthIndex_div h, monthIndex_mod h]
  omega

/-- A month begins when the one before it is over. Only the end of February depends on the year. -/
theorem monthStart_succ (k : Int) :
    monthStart (k + 1) = monthStart k + daysInMonth (k / 12) ((k % 12).toNat + 1) := by
  obtain ⟨year, month, rfl, hfirst, hlast⟩ : ∃ year month : Int,
      k = 12 * year + month ∧ 0 ≤ month ∧ month < 12 := ⟨k / 12, k % 12, by omega⟩
  have hleap := leapDays_eq year
  have hyear : (12 * year + month) / 12 = year := by omega
  have hmonth : (12 * year + month) % 12 = month := by omega
  simp only [monthStart, hyear, hmonth]
  by_cases hturn : month = 11
  · subst hturn
    have hnext : (12 * year + 11 + 1) / 12 = year + 1 := by omega
    have hjanuary : (12 * year + 11 + 1) % 12 = 0 := by omega
    rw [hnext, hjanuary]
    simp [toDays_eq, daysInMonth]
    omega
  · have hnext : (12 * year + month + 1) / 12 = year := by omega
    have hfollowing : (12 * year + month + 1) % 12 = month + 1 := by omega
    rw [hnext, hfollowing]
    by_cases hfebruary : month = 1
    · subst hfebruary
      simp [toDays_eq, daysInMonth]
      rw [hleap]
      split_ifs <;> omega
    · interval_cases month <;> simp [toDays_eq, daysInMonth] at hturn hfebruary ⊢ <;> omega

theorem monthStart_strictMono : StrictMono monthStart :=
  strictMono_int_of_lt_succ fun k => by
    have hpos := daysInMonth_pos (k / 12) ((k % 12).toNat + 1)
    rw [monthStart_succ]
    omega

/-- The last day of the month of a date is before the next month. -/
theorem toDays_lt_monthStart {d : Date} (h : d.isValid) :
    d.toDays < monthStart (d.monthIndex + 1) := by
  obtain ⟨-, -, -, hday⟩ := isValid_iff.mp h
  rw [toDays_eq_monthStart h, monthStart_succ, monthIndex_div h, monthIndex_mod h]
  omega

/-! ## The order of dates -/

theorem Before.toDays_lt {a b : Date} (h : a.Before b) (ha : a.isValid) (hb : b.isValid) :
    a.toDays < b.toDays := by
  have hlater := toDays_lt_monthStart ha
  rw [toDays_eq_monthStart hb]
  obtain ⟨-, -, hday, -⟩ := isValid_iff.mp hb
  by_cases hmonth : a.monthIndex < b.monthIndex
  · have hle := monthStart_strictMono.monotone (show a.monthIndex + 1 ≤ b.monthIndex by omega)
    omega
  · obtain ⟨hfirst, hlast, -, -⟩ := isValid_iff.mp ha
    obtain ⟨hfirst', hlast', -, -⟩ := isValid_iff.mp hb
    unfold Before at h
    have hsame : a.monthIndex = b.monthIndex ∧ a.day < b.day := by
      unfold monthIndex at hmonth ⊢
      omega
    rw [toDays_eq_monthStart ha, hsame.1]
    omega

theorem before_or_eq_or_before (a b : Date) : a.Before b ∨ a = b ∨ b.Before a := by
  obtain ⟨year, month, day⟩ := a
  obtain ⟨year', month', day'⟩ := b
  simp only [Before, mk.injEq]
  omega

/-! ## Turning over -/

theorem isValid_next {d : Date} (h : d.isValid) : d.next.isValid := by
  obtain ⟨hfirst, hlast, hday, hdays⟩ := isValid_iff.mp h
  have hone := daysInMonth_pos
  unfold next
  split_ifs
  · exact isValid_mk.mpr (by omega)
  · exact isValid_mk.mpr ⟨by omega, by omega, by omega, hone _ _⟩
  · exact isValid_mk.mpr ⟨by omega, by omega, by omega, hone _ _⟩

theorem toDays_next {d : Date} (h : d.isValid) : d.next.toDays = d.toDays + 1 := by
  obtain ⟨-, hlast, -, hdays⟩ := isValid_iff.mp h
  have hstart := monthStart_succ d.monthIndex
  rw [monthIndex_div h, monthIndex_mod h] at hstart
  rw [toDays_eq_monthStart (isValid_next h), toDays_eq_monthStart h]
  have hnext : d.next.monthIndex = d.monthIndex ∧ d.next.day = d.day + 1 ∨
      d.next.monthIndex = d.monthIndex + 1 ∧ d.next.day = 1 ∧
        d.day = daysInMonth d.year d.month := by
    unfold next monthIndex
    split_ifs <;> dsimp only <;> omega
  obtain ⟨hmonth, hday⟩ | ⟨hmonth, hday, hover⟩ := hnext
  · rw [hmonth, hday]
    omega
  · rw [hmonth, hday, hstart]
    omega

theorem isValid_previous {d : Date} (h : d.isValid) : d.previous.isValid := by
  obtain ⟨hfirst, hlast, hday, hdays⟩ := isValid_iff.mp h
  unfold previous
  split_ifs
  · exact isValid_mk.mpr (by omega)
  · exact isValid_mk.mpr ⟨by omega, by omega, daysInMonth_pos _ _, by omega⟩
  · exact isValid_mk.mpr ⟨by omega, by omega, by omega, Nat.le_refl 31⟩

theorem next_previous {d : Date} (h : d.isValid) : d.previous.next = d := by
  obtain ⟨hfirst, hlast, hday, hdays⟩ := isValid_iff.mp h
  obtain ⟨year, month, day⟩ := d
  dsimp only at hfirst hlast hday hdays
  unfold previous
  dsimp only
  split_ifs with hlater hmonth
  · rw [next, if_pos (by dsimp only; omega), Nat.sub_add_cancel hday]
  · obtain rfl : day = 1 := by omega
    rw [next, if_neg (Nat.lt_irrefl _), if_pos (by dsimp only; omega), Nat.sub_add_cancel hfirst]
  · obtain rfl : day = 1 := by omega
    obtain rfl : month = 1 := by omega
    simp [next, daysInMonth]

theorem toDays_previous {d : Date} (h : d.isValid) : d.previous.toDays = d.toDays - 1 := by
  have hnext := toDays_next (isValid_previous h)
  rw [next_previous h] at hnext
  omega

/-! ## The date of a day -/

/-- The day `r` of a cycle of four centuries, which begins in March, by its century, its group of four
years, its year and its day. Only the last year of a group has a leap day, and the last group of a
century only if the century is the last. -/
structure IsDayOfCycle (r century group year day : Int) : Prop where
  century_bounds : 0 ≤ century ∧ century ≤ 3
  group_bounds : 0 ≤ group ∧ group ≤ 24
  year_bounds : 0 ≤ year ∧ year ≤ 3
  day_bounds : 0 ≤ day ∧ day ≤ 365
  leapDay : day = 365 → year = 3 ∧ (group = 24 → century = 3)
  eq : r = 36524 * century + 1461 * group + 365 * year + day

theorem exists_isDayOfCycle {r : Int} (h0 : 0 ≤ r) (h : r < 146097) :
    ∃ century group year day, IsDayOfCycle r century group year day := by
  obtain ⟨c, hc⟩ : ∃ c, c = min (r / 36524) 3 := ⟨_, rfl⟩
  obtain ⟨g, hg⟩ : ∃ g, g = (r - 36524 * c) / 1461 := ⟨_, rfl⟩
  obtain ⟨y, hy⟩ : ∃ y, y = min ((r - 36524 * c - 1461 * g) / 365) 3 := ⟨_, rfl⟩
  refine ⟨c, g, y, r - 36524 * c - 1461 * g - 365 * y, ⟨?_, ?_, ?_, ?_, ?_, ?_⟩⟩ <;> omega

variable {r c g y d : Int}

/-- The days that are set aside before the division by 365 are the leap days gone by. -/
theorem IsDayOfCycle.yearOfCycle (h : IsDayOfCycle r c g y d) :
    (r - r / 1460 + r / 36524 - r / 146096) / 365 = 100 * c + 4 * g + y := by
  obtain ⟨⟨hc0, hc⟩, ⟨hg0, hg⟩, ⟨hy0, hy⟩, ⟨hd0, hd⟩, hleap, hr⟩ := h
  have hcentury : r / 36524 - r / 146096 = c := by
    by_cases hlast : r = 146096
    · omega
    · have hrest : 1461 * g + 365 * y + d ≤ 36523 := by omega
      have hdiv : r / 36524 = c := by omega
      omega
  have hgroup : r / 1460 = 25 * c + g ∧ d ≤ 364 ∨ r / 1460 = 25 * c + g + 1 ∧ 1 ≤ d := by
    by_cases hlong : 1460 ≤ 24 * c + g + 365 * y + d
    · right
      omega
    · left
      omega
  omega

/-- A year that has a leap day ends in February of a leap year. -/
theorem IsDayOfCycle.isLeapYear (h : IsDayOfCycle r c g y d) (hd : d = 365) (cycle : Int) :
    isLeapYear (100 * c + 4 * g + y + cycle * 400 + 1) := by
  obtain ⟨hc, hg, -, -, hleap, -⟩ := h
  obtain ⟨hy, hlast⟩ := hleap hd
  rw [isLeapYear_iff]
  omega

/-- What is left of the cycle after the years before is the day of the year. -/
theorem IsDayOfCycle.dayOfYear (h : IsDayOfCycle r c g y d) :
    r - (365 * (100 * c + 4 * g + y) + (100 * c + 4 * g + y) / 4 -
      (100 * c + 4 * g + y) / 100) = d := by
  obtain ⟨-, hg, hy, -, -, hr⟩ := h
  have hfour : (100 * c + 4 * g + y) / 4 = 25 * c + g := by omega
  have hhundred : (100 * c + 4 * g + y) / 100 = c := by omega
  omega

/-- A year begins with its third month, and its last two are the first of the next year. -/
theorem ofDays_eq {n cycle : Int} (hn : n + 719468 = 146097 * cycle + r) (h0 : 0 ≤ r)
    (hr : r < 146097) (h : IsDayOfCycle r c g y d) {month : Int} (hm : month = (5 * d + 2) / 153) :
    ofDays n = ⟨100 * c + 4 * g + y + cycle * 400 + (if month < 10 then 0 else 1),
      (if month < 10 then month + 3 else month - 9).toNat,
      (d - (153 * month + 2) / 5 + 1).toNat⟩ := by
  have hcycle : (n + 719468).fdiv 146097 = cycle := by
    rw [Int.fdiv_eq_ediv_of_nonneg _ (by decide)]
    omega
  have hrest : (n + 719468).fmod 146097 = r := by
    rw [Int.fmod_eq_emod_of_nonneg _ (by decide)]
    omega
  have hturn : (if (if month < 10 then month + 3 else month - 9) ≤ 2 then (1 : Int) else 0) =
      if month < 10 then 0 else 1 := by
    have hmonth : 0 ≤ month ∧ month ≤ 11 := by
      obtain ⟨-, -, -, hd, -, -⟩ := h
      omega
    split_ifs <;> omega
  simp only [ofDays, hcycle, hrest, h.yearOfCycle, h.dayOfYear, ← hm, hturn]

theorem IsDayOfCycle.leapDays (h : IsDayOfCycle r c g y d) (cycle : Int) :
    leapDays (100 * c + 4 * g + y + cycle * 400) = 97 * cycle + 24 * c + g := by
  obtain ⟨hc, hg, hy, -, -, -⟩ := h
  have hfour : (100 * c + 4 * g + y + cycle * 400) / 4 = 25 * c + g + 100 * cycle := by omega
  have hhundred : (100 * c + 4 * g + y + cycle * 400) / 100 = c + 4 * cycle := by omega
  have hfourHundred : (100 * c + 4 * g + y + cycle * 400) / 400 = cycle := by omega
  rw [Date.leapDays, hfour, hhundred, hfourHundred]
  omega

theorem ofDays_spec (n : Int) : (ofDays n).isValid ∧ (ofDays n).toDays = n := by
  obtain ⟨cycle, r, hn, h0, hr⟩ : ∃ cycle r, n + 719468 = 146097 * cycle + r ∧ 0 ≤ r ∧
      r < 146097 := ⟨(n + 719468) / 146097, (n + 719468) % 146097, by omega⟩
  obtain ⟨c, g, y, d, hday⟩ := exists_isDayOfCycle h0 hr
  obtain ⟨month, hm⟩ : ∃ month, month = (5 * d + 2) / 153 := ⟨_, rfl⟩
  have hleap := fun hd => hday.isLeapYear hd cycle
  have hleapDays := hday.leapDays cycle
  rw [ofDays_eq hn h0 hr hday hm, isValid_mk, toDays_eq]
  obtain ⟨-, -, -, hd, -, heq⟩ := hday
  have hmonth : 0 ≤ month ∧ month ≤ 11 := by omega
  obtain ⟨hfirst, hlast⟩ := hmonth
  generalize hyear : 100 * c + 4 * g + y + cycle * 400 = year at hleap hleapDays ⊢
  by_cases hfebruary : month = 11
  · subst hfebruary
    have hdays : d ≤ 336 + daysInMonth (year + 1) 2 := by
      rw [daysInMonth_february]
      split_ifs with hl
      · omega
      · have hshort := mt hleap hl
        omega
    simp [hleapDays]
    omega
  · interval_cases month <;> simp [daysInMonth, hleapDays] at hfebruary ⊢ <;> omega

theorem isValid_ofDays (n : Int) : (ofDays n).isValid := (ofDays_spec n).1

theorem toDays_ofDays (n : Int) : (ofDays n).toDays = n := (ofDays_spec n).2

end Date
end WebhookDelivery
