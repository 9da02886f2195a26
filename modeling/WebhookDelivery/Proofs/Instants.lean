import WebhookDelivery.Proofs.Calendar
import WebhookDelivery.Time.ClockFace

/-!
# WebhookDelivery.Proofs.Instants

The stored form of a time against the clock that shows it. A clock ticks once in a microsecond, and
turns over its seconds, minutes, hours and dates.

* `ClockFace.next`, `ClockFace.previous`, `ClockFace.after`: what a clock shows after a tick, before
  it, and any number of ticks away.
* `reading_after`: readings count the ticks.
* `ClockTime.universal`: what a universal clock shows at the instant of a time.
* `times_are_stored_exactly`: stored times are in the order of their instants and lead back to them.
-/

namespace WebhookDelivery
namespace ClockFace

/-- A microsecond later. -/
def next (f : ClockFace) : ClockFace :=
  if f.micro < 999999 then { f with micro := f.micro + 1 }
  else if f.second < 59 then { f with second := f.second + 1, micro := 0 }
  else if f.minute < 59 then { f with minute := f.minute + 1, second := 0, micro := 0 }
  else if f.hour < 23 then ⟨f.date, f.hour + 1, 0, 0, 0⟩
  else ⟨f.date.next, 0, 0, 0, 0⟩

/-- A microsecond earlier. -/
def previous (f : ClockFace) : ClockFace :=
  if 0 < f.micro then { f with micro := f.micro - 1 }
  else if 0 < f.second then { f with second := f.second - 1, micro := 999999 }
  else if 0 < f.minute then { f with minute := f.minute - 1, second := 59, micro := 999999 }
  else if 0 < f.hour then ⟨f.date, f.hour - 1, 59, 59, 999999⟩
  else ⟨f.date.previous, 23, 59, 59, 999999⟩

/-- What a clock shows a number of microseconds after it shows `f`, or before it. -/
def after (f : ClockFace) : Int → ClockFace
  | .ofNat n => next^[n] f
  | .negSucc n => previous^[n + 1] f

/-- Earlier on a date: by the hour, then by the minute, the second and the microsecond. -/
def BeforeOnDate (a b : ClockFace) : Prop :=
  a.hour < b.hour ∨ a.hour = b.hour ∧ (a.minute < b.minute ∨ a.minute = b.minute ∧
    (a.second < b.second ∨ a.second = b.second ∧ a.micro < b.micro))

/-- Earlier on a clock. -/
def Before (a b : ClockFace) : Prop :=
  a.date.Before b.date ∨ a.date = b.date ∧ a.BeforeOnDate b

/-- In the years that a time can be read back in. -/
def InCalendar (f : ClockFace) : Prop := 1 ≤ f.date.year ∧ f.date.year ≤ 9999

/-- The beginning of 1970. -/
def epoch : ClockFace := ⟨⟨1970, 1, 1⟩, 0, 0, 0, 0⟩

theorem isValid_iff {f : ClockFace} : f.isValid ↔
    f.date.isValid ∧ f.hour ≤ 23 ∧ f.minute ≤ 59 ∧ f.second ≤ 59 ∧ f.micro ≤ 999999 := by
  simp [isValid, and_assoc]

theorem microOfDay_lt {f : ClockFace} (h : f.isValid) :
    (f.microOfDay : Int) < ClockTime.microsPerDay := by
  obtain ⟨-, hhour, hminute, hsecond, hmicro⟩ := isValid_iff.mp h
  unfold microOfDay ClockTime.microsPerDay
  omega

/-! ## Readings -/

theorem Before.reading_lt {a b : ClockFace} (h : a.Before b) (ha : a.isValid) (hb : b.isValid) :
    a.reading < b.reading := by
  have hday := microOfDay_lt ha
  obtain ⟨hdate, hhour, hminute, hsecond, hmicro⟩ := isValid_iff.mp ha
  obtain ⟨hdate', hhour', hminute', hsecond', hmicro'⟩ := isValid_iff.mp hb
  unfold reading ClockTime.microsPerDay at *
  rcases h with hbefore | ⟨heq, htime⟩
  · have hlt := hbefore.toDays_lt hdate hdate'
    omega
  · have hlt : a.microOfDay < b.microOfDay := by
      unfold BeforeOnDate at htime
      unfold microOfDay
      omega
    rw [heq]
    omega

theorem before_or_eq_or_before (a b : ClockFace) : a.Before b ∨ a = b ∨ b.Before a := by
  obtain ⟨date, hour, minute, second, micro⟩ := a
  obtain ⟨date', hour', minute', second', micro'⟩ := b
  rcases Date.before_or_eq_or_before date date' with hlt | rfl | hgt
  · exact .inl (.inl hlt)
  · have htime : BeforeOnDate ⟨date, hour, minute, second, micro⟩
          ⟨date, hour', minute', second', micro'⟩ ∨
        (hour = hour' ∧ minute = minute' ∧ second = second' ∧ micro = micro') ∨
        BeforeOnDate ⟨date, hour', minute', second', micro'⟩
          ⟨date, hour, minute, second, micro⟩ := by
      unfold BeforeOnDate
      dsimp only
      omega
    rcases htime with hlt | ⟨rfl, rfl, rfl, rfl⟩ | hgt
    · exact .inl (.inr ⟨rfl, hlt⟩)
    · exact .inr (.inl rfl)
    · exact .inr (.inr (.inr ⟨rfl, hgt⟩))
  · exact .inr (.inr (.inl hgt))

theorem reading_lt_iff {a b : ClockFace} (ha : a.isValid) (hb : b.isValid) :
    a.reading < b.reading ↔ a.Before b := by
  refine ⟨fun h => ?_, fun h => h.reading_lt ha hb⟩
  rcases before_or_eq_or_before a b with hlt | rfl | hgt
  · exact hlt
  · exact absurd h (Int.lt_irrefl _)
  · exact absurd (hgt.reading_lt hb ha) (Int.lt_asymm h)

theorem reading_inj {a b : ClockFace} (ha : a.isValid) (hb : b.isValid) :
    a.reading = b.reading ↔ a = b := by
  refine ⟨fun h => ?_, fun h => h ▸ rfl⟩
  rcases before_or_eq_or_before a b with hlt | heq | hgt
  · exact absurd (hlt.reading_lt ha hb) (by omega)
  · exact heq
  · exact absurd (hgt.reading_lt hb ha) (by omega)

theorem ofReading_spec (n : Int) : (ofReading n).isValid ∧ (ofReading n).reading = n := by
  have hday : n.fdiv ClockTime.microsPerDay = n / 86400000000 :=
    Int.fdiv_eq_ediv_of_nonneg n (by decide)
  have htime : n.fmod ClockTime.microsPerDay = n % 86400000000 :=
    Int.fmod_eq_emod_of_nonneg n (by decide)
  constructor
  · refine isValid_iff.mpr ⟨Date.isValid_ofDays _, ?_⟩
    simp only [ofReading, htime]
    omega
  · simp only [reading, microOfDay, ofReading, Date.toDays_ofDays, hday, htime]
    unfold ClockTime.microsPerDay
    omega

theorem isValid_ofReading (n : Int) : (ofReading n).isValid := (ofReading_spec n).1

theorem reading_ofReading (n : Int) : (ofReading n).reading = n := (ofReading_spec n).2

theorem ofReading_reading {f : ClockFace} (h : f.isValid) : ofReading f.reading = f :=
  (reading_inj (isValid_ofReading _) h).mp (reading_ofReading _)

/-! ## Ticks -/

theorem isValid_next {f : ClockFace} (h : f.isValid) : f.next.isValid := by
  obtain ⟨hdate, htime⟩ := isValid_iff.mp h
  unfold next
  split_ifs
  case neg => exact isValid_iff.mpr ⟨Date.isValid_next hdate, by dsimp only; omega⟩
  all_goals exact isValid_iff.mpr ⟨hdate, by dsimp only; omega⟩

theorem reading_next {f : ClockFace} (h : f.isValid) : f.next.reading = f.reading + 1 := by
  obtain ⟨hdate, htime⟩ := isValid_iff.mp h
  have hdays := Date.toDays_next hdate
  unfold reading ClockTime.microsPerDay microOfDay next
  split_ifs <;> dsimp only <;> omega

theorem isValid_previous {f : ClockFace} (h : f.isValid) : f.previous.isValid := by
  obtain ⟨hdate, htime⟩ := isValid_iff.mp h
  unfold previous
  split_ifs
  case neg => exact isValid_iff.mpr ⟨Date.isValid_previous hdate, by dsimp only; omega⟩
  all_goals exact isValid_iff.mpr ⟨hdate, by dsimp only; omega⟩

theorem reading_previous {f : ClockFace} (h : f.isValid) :
    f.previous.reading = f.reading - 1 := by
  obtain ⟨hdate, htime⟩ := isValid_iff.mp h
  have hdays := Date.toDays_previous hdate
  unfold reading ClockTime.microsPerDay microOfDay previous
  split_ifs <;> dsimp only <;> omega

/-- Ticks that each move the reading by `step` move it by as much as they are many. -/
theorem iterate_spec {tick : ClockFace → ClockFace} {step : Int}
    (hvalid : ∀ f, f.isValid → (tick f).isValid)
    (hreading : ∀ f, f.isValid → (tick f).reading = f.reading + step) (n : Nat) {f : ClockFace}
    (h : f.isValid) : (tick^[n] f).isValid ∧ (tick^[n] f).reading = f.reading + n * step := by
  induction n generalizing f with
  | zero => exact ⟨h, by simp⟩
  | succ n ih =>
    obtain ⟨hv, hr⟩ := ih (hvalid f h)
    rw [Function.iterate_succ_apply]
    refine ⟨hv, ?_⟩
    rw [hr, hreading f h, Nat.cast_succ, add_mul]
    omega

theorem after_spec {f : ClockFace} (h : f.isValid) (n : Int) :
    (f.after n).isValid ∧ (f.after n).reading = f.reading + n := by
  cases n with
  | ofNat n =>
    obtain ⟨hv, hr⟩ := iterate_spec (fun _ => isValid_next) (fun _ => reading_next) n h
    exact ⟨hv, hr.trans (by simp)⟩
  | negSucc n =>
    obtain ⟨hv, hr⟩ := iterate_spec (fun _ => isValid_previous) (fun _ => reading_previous) (n + 1) h
    exact ⟨hv, hr.trans (by omega)⟩

theorem isValid_after {f : ClockFace} (h : f.isValid) (n : Int) : (f.after n).isValid :=
  (after_spec h n).1

theorem reading_after {f : ClockFace} (h : f.isValid) (n : Int) :
    (f.after n).reading = f.reading + n := (after_spec h n).2

theorem isValid_epoch : epoch.isValid := by decide

theorem reading_epoch : epoch.reading = 0 := by decide

/-- A clock that has shown the beginning of 1970 shows the reading of the ticks since then. -/
theorem after_epoch (n : Int) : epoch.after n = ofReading n := by
  rw [← reading_inj (isValid_after isValid_epoch n) (isValid_ofReading n), reading_ofReading,
    reading_after isValid_epoch, reading_epoch, Int.zero_add]

end ClockFace

namespace ClockTime

/-- What a universal clock shows when one that is ahead of it by `offset` shows `f`. -/
def universal (f : ClockFace) (offset : Int) : ClockFace := f.after (-offset)

variable {f : ClockFace}

theorem reading_universal (h : f.isValid) (offset : Int) :
    (universal f offset).reading = (shown f (some offset)).micros := by
  rw [universal, ClockFace.reading_after h]
  rfl

theorem isValid_universal (h : f.isValid) (offset : Int) : (universal f offset).isValid :=
  ClockFace.isValid_after h _

theorem universal_eq_ofReading (h : f.isValid) (offset : Int) :
    universal f offset = .ofReading (shown f (some offset)).micros := by
  rw [← reading_universal h, ClockFace.ofReading_reading (isValid_universal h offset)]

theorem earliest_le_reading_iff (h : f.isValid) : earliest ≤ f.reading ↔ 1 ≤ f.date.year := by
  obtain ⟨hdate, -⟩ := ClockFace.isValid_iff.mp h
  obtain ⟨hfirst, -, hday, -⟩ := Date.isValid_iff.mp hdate
  rw [show earliest = ClockFace.reading ⟨⟨1, 1, 1⟩, 0, 0, 0, 0⟩ by decide, ← Int.not_lt,
    ClockFace.reading_lt_iff h (by decide)]
  unfold ClockFace.Before ClockFace.BeforeOnDate Date.Before
  dsimp only
  omega

theorem reading_le_latest_iff (h : f.isValid) : f.reading ≤ latest ↔ f.date.year ≤ 9999 := by
  obtain ⟨hdate, htime⟩ := ClockFace.isValid_iff.mp h
  obtain ⟨-, hlast, -, hdays⟩ := Date.isValid_iff.mp hdate
  have hlength := Date.daysInMonth_le f.date.year f.date.month
  rw [show latest = ClockFace.reading ⟨⟨9999, 12, 31⟩, 23, 59, 59, 999999⟩ by decide, ← Int.not_lt,
    ClockFace.reading_lt_iff (by decide) h]
  unfold ClockFace.Before ClockFace.BeforeOnDate Date.Before
  dsimp only
  omega

theorem inRange_reading_iff (h : f.isValid) : inRange f.reading ↔ f.InCalendar := by
  rw [inRange, Bool.and_eq_true, decide_eq_true_eq, decide_eq_true_eq, earliest_le_reading_iff h,
    reading_le_latest_iff h, ClockFace.InCalendar]

theorem inRange_micros_iff (h : f.isValid) (offset : Int) :
    inRange (shown f (some offset)).micros ↔ (universal f offset).InCalendar := by
  rw [← reading_universal h, inRange_reading_iff (isValid_universal h offset)]

/-- Two aware times are stored in the order of what a universal clock shows at their instants, and
equal exactly if it shows the same. What is stored counts the microseconds since the beginning of
1970. It is read back as the universal time of the instant if this lies in the years 1 to 9999, and
not at all otherwise; and what is read back from a number is stored as that number. -/
theorem times_are_stored_exactly :
    (∀ (f g : ClockFace) (ahead ahead' : Int), f.isValid → g.isValid →
      ((shown f (some ahead)).micros < (shown g (some ahead')).micros ↔
        (universal f ahead).Before (universal g ahead')) ∧
      ((shown f (some ahead)).micros = (shown g (some ahead')).micros ↔
        universal f ahead = universal g ahead')) ∧
    (∀ (f : ClockFace) (ahead : Int), f.isValid →
      universal f ahead = ClockFace.epoch.after (shown f (some ahead)).micros ∧
      ((universal f ahead).InCalendar → ∃ t, ofMicros? (shown f (some ahead)).micros = .ok t ∧
        t.offset = some 0 ∧ t.face = universal f ahead) ∧
      (¬ (universal f ahead).InCalendar →
        ofMicros? (shown f (some ahead)).micros = .error .outOfRange)) ∧
    ∀ n, (∃ (f : ClockFace) (ahead : Int), f.isValid ∧ (universal f ahead).InCalendar ∧
        (shown f (some ahead)).micros = n) →
      ∃ t, ofMicros? n = .ok t ∧ t.isAware ∧ t.micros = n := by
  refine ⟨fun f g ahead ahead' hf hg => ⟨?_, ?_⟩, fun f ahead hf => ⟨?_, ?_, ?_⟩, ?_⟩
  · rw [← reading_universal hf, ← reading_universal hg]
    exact ClockFace.reading_lt_iff (isValid_universal hf ahead) (isValid_universal hg ahead')
  · rw [← reading_universal hf, ← reading_universal hg]
    exact ClockFace.reading_inj (isValid_universal hf ahead) (isValid_universal hg ahead')
  · rw [ClockFace.after_epoch, universal_eq_ofReading hf]
  · intro hcalendar
    refine ⟨utc (shown f (some ahead)).micros, ?_, rfl, (universal_eq_ofReading hf ahead).symm⟩
    rw [ofMicros?, if_pos ((inRange_micros_iff hf ahead).mpr hcalendar)]
  · intro hcalendar
    rw [ofMicros?, if_neg ((inRange_micros_iff hf ahead).not.mpr hcalendar)]
  · rintro n ⟨f, ahead, hf, hcalendar, rfl⟩
    refine ⟨utc (shown f (some ahead)).micros, ?_, rfl, Int.sub_zero _⟩
    rw [ofMicros?, if_pos ((inRange_micros_iff hf ahead).mpr hcalendar)]

/-- Half an hour after the beginning of 1970 as a clock in the west shows it, and a quarter of an hour
before it as one in the east does. -/
theorem new_year_is_stored_exactly :
    let west : ClockFace := ⟨⟨1969, 12, 31⟩, 23, 30, 0, 0⟩
    let east : ClockFace := ⟨⟨1970, 1, 1⟩, 0, 15, 0, 0⟩
    west.isValid ∧ east.isValid ∧
      (universal east 1800000000).Before (universal west (-3600000000)) ∧
      (universal east 1800000000).InCalendar ∧
      (∃ t, ofMicros? (-900000000) = .ok t ∧ t.offset = some 0 ∧
        t.face = ⟨⟨1969, 12, 31⟩, 23, 45, 0, 0⟩) ∧
      ∃ t, ofMicros? (-900000000) = .ok t ∧ t.isAware ∧ t.micros = -900000000 := by
  intro west east
  have hwest : west.isValid := by decide
  have heast : east.isValid := by decide
  have hface : universal east 1800000000 = ⟨⟨1969, 12, 31⟩, 23, 45, 0, 0⟩ := by
    rw [universal_eq_ofReading heast]
    decide
  have hcalendar : (universal east 1800000000).InCalendar := by
    rw [hface]
    exact ⟨by decide, by decide⟩
  have hmicros : (shown east (some 1800000000)).micros = -900000000 := by decide
  obtain ⟨horder, hread, hstored⟩ := times_are_stored_exactly
  refine ⟨hwest, heast, ?_, hcalendar, ?_, ?_⟩
  · exact (horder east west 1800000000 (-3600000000) heast hwest).1.mp (by decide)
  · obtain ⟨t, ht, hoffset, hshown⟩ := (hread east 1800000000 heast).2.1 hcalendar
    exact ⟨t, hmicros ▸ ht, hoffset, hshown.trans hface⟩
  · exact hstored (-900000000) ⟨east, 1800000000, heast, hcalendar, hmicros⟩

end ClockTime
end WebhookDelivery
