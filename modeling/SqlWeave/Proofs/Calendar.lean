import Mathlib.Order.Monotone.Basic
import SqlWeave.Time.DateTime

/-!
# Counting days

The days of the calendar are counted from the first one of the year 1, before it downwards. A year
has 365 days, or 366 if it is a leap year (`Date.daysBeforeYear_succ`), and its months have as many
days together (`Date.daysBeforeMonth_year`). So each day has a number of its own
(`Date.dayNumber_injective`), and the next day has the next number, whatever turns over with it
(`Date.dayNumber_next`). A day without a next one has the greatest number of all
(`Date.dayNumber_le_last`).

The local time of a moment is counted in nanoseconds along with the days. What is `n` nanoseconds
later is `n` greater (`DateTime.localNanos_later`), and if the calendar does not have it, no moment
is as late (`DateTime.localNanos_lt_of_later_none`).
-/

namespace SqlWeave.Time

namespace Date

/-! ## Years and months -/

/-- How many days a year has. -/
def daysInYear (year : Int) : Nat := if isLeapYear year then 366 else 365

theorem isLeapYear_iff (year : Int) :
    isLeapYear year = true ↔ year % 4 = 0 ∧ (year % 100 ≠ 0 ∨ year % 400 = 0) := by
  simp [isLeapYear]

/-- A year ends where the next one begins. -/
theorem daysBeforeYear_succ (year : Int) :
    daysBeforeYear (year + 1) = daysBeforeYear year + daysInYear year := by
  simp only [daysBeforeYear, daysInYear]
  by_cases h : isLeapYear year = true
  · rw [if_pos h]
    rw [isLeapYear_iff] at h
    omega
  · rw [if_neg h]
    rw [isLeapYear_iff] at h
    omega

theorem daysBeforeYear_mono {year later : Int} (h : year ≤ later) :
    daysBeforeYear year ≤ daysBeforeYear later := by
  simp only [daysBeforeYear]
  omega

/-- The months of a year have as many days as the year. -/
theorem daysBeforeMonth_year (year : Int) :
    daysBeforeMonth year 12 + daysInMonth year 12 = daysInYear year := by
  cases h : isLeapYear year <;> simp [daysBeforeMonth, daysInMonth, daysInYear, h]

/-- A month ends where the next one begins. -/
theorem daysBeforeMonth_succ (year : Int) {month : Nat} (h : 1 ≤ month) :
    daysBeforeMonth year (month + 1) = daysBeforeMonth year month + daysInMonth year month := by
  obtain ⟨month, rfl⟩ := Nat.exists_eq_add_of_le' h
  rfl

theorem daysBeforeMonth_mono (year : Int) : Monotone (daysBeforeMonth year) := by
  refine monotone_nat_of_le_succ fun month => ?_
  cases month with
  | zero => exact Nat.le_refl _
  | succ month =>
    rw [daysBeforeMonth_succ year (Nat.succ_pos month)]
    exact Nat.le_add_right _ _

/-! ## Days -/

/-- A day is numbered among the days of its year. -/
theorem dayNumber_bounds (d : Date) :
    daysBeforeYear d.year ≤ d.dayNumber ∧ d.dayNumber < daysBeforeYear (d.year + 1) := by
  have hday := d.day_bounds
  have hsucc := daysBeforeMonth_succ d.year d.month_bounds.1
  have hlast := daysBeforeMonth_succ d.year (by decide : 1 ≤ 12)
  have hmono := daysBeforeMonth_mono d.year (Nat.succ_le_succ d.month_bounds.2)
  have hyear := daysBeforeMonth_year d.year
  rw [daysBeforeYear_succ]
  simp only [dayNumber, Nat.succ_eq_add_one] at *
  omega

/-- Dates are told apart by year, month and day. -/
theorem eq_of_fields {d e : Date} (hyear : d.year = e.year) (hmonth : d.month = e.month)
    (hday : d.day = e.day) : d = e := by
  cases d
  cases e
  simp_all

/-- A day has a number of its own. -/
theorem dayNumber_injective : Function.Injective dayNumber := by
  intro d e h
  -- Years, and then the months of a year, take up numbers one after the other, so a day of a later
  -- one has a greater number.
  have hyear : d.year = e.year := by
    have hd := d.dayNumber_bounds
    have he := e.dayNumber_bounds
    rcases Int.lt_trichotomy d.year e.year with hlt | heq | hlt
    · have := daysBeforeYear_mono (Int.add_one_le_of_lt hlt)
      omega
    · exact heq
    · have := daysBeforeYear_mono (Int.add_one_le_of_lt hlt)
      omega
  have hdday := d.day_bounds
  have heday := e.day_bounds
  rw [dayNumber, dayNumber, hyear] at h
  rw [hyear] at hdday
  have hmonth : d.month = e.month := by
    have hdsucc := daysBeforeMonth_succ e.year d.month_bounds.1
    have hesucc := daysBeforeMonth_succ e.year e.month_bounds.1
    rcases Nat.lt_trichotomy d.month e.month with hlt | heq | hlt
    · have := daysBeforeMonth_mono e.year (Nat.add_one_le_of_lt hlt)
      omega
    · exact heq
    · have := daysBeforeMonth_mono e.year (Nat.add_one_le_of_lt hlt)
      omega
  rw [hmonth] at h
  exact eq_of_fields hyear hmonth (by omega)

/-- The next day has the next number, within a month, into the next month and into the next
year. -/
theorem dayNumber_next {d next : Date} (h : d.next? = some next) :
    next.dayNumber = d.dayNumber + 1 := by
  have hbounds := d.day_bounds
  unfold next? at h
  split at h
  · obtain rfl := Option.some.inj h
    simp only [dayNumber]
    omega
  rename_i hday
  split at h
  · obtain rfl := Option.some.inj h
    have hsucc := daysBeforeMonth_succ d.year d.month_bounds.1
    simp only [dayNumber]
    omega
  rename_i hmonth
  split at h
  · obtain rfl := Option.some.inj h
    obtain hmonth : d.month = 12 := Nat.le_antisymm d.month_bounds.2 (Nat.le_of_not_lt hmonth)
    have hmonths := daysBeforeMonth_year d.year
    have hfirst : daysBeforeMonth (d.year + 1) 1 = 0 := rfl
    rw [hmonth] at hday hbounds
    simp only [dayNumber, daysBeforeYear_succ, hmonth, hfirst]
    omega
  · cases h

/-- Only the last day of the last year has no next one. -/
theorem next_eq_none {d : Date} (h : d.next? = none) :
    d.year = 9999 ∧ d.month = 12 ∧ d.day = daysInMonth d.year d.month := by
  have hyears := d.year_bounds
  have hmonths := d.month_bounds
  have hdays := d.day_bounds
  unfold next? at h
  split at h
  · cases h
  split at h
  · cases h
  split at h
  · cases h
  · omega

/-- No day is after one that has no next day. -/
theorem dayNumber_le_last {d : Date} (h : d.next? = none) (e : Date) :
    e.dayNumber ≤ d.dayNumber := by
  obtain ⟨hyear, hmonth, hday⟩ := next_eq_none h
  have he := e.dayNumber_bounds
  have hend : daysBeforeYear (e.year + 1) ≤ daysBeforeYear (d.year + 1) := by
    have := e.year_bounds
    exact daysBeforeYear_mono (by omega)
  have hmonths := daysBeforeMonth_year d.year
  rw [daysBeforeYear_succ d.year] at hend
  rw [hmonth] at hday
  have hnumber : d.dayNumber = daysBeforeYear d.year + daysBeforeMonth d.year 12 + (d.day - 1) := by
    rw [dayNumber, hmonth]
  omega

end Date

/-! ## Nanoseconds -/

namespace DateTime

variable {t later : DateTime} {n : Nat} {h : n ≤ nanosPerDay}

theorem localNanos_eq (t : DateTime) :
    t.localNanos = t.date.dayNumber * 86400000000000 + t.nanos :=
  rfl

theorem nanosPerDay_eq : nanosPerDay = 86400000000000 :=
  rfl

/-- A later moment keeps the offset. -/
theorem offset_later (hlater : t.later? n h = some later) : later.offset = t.offset := by
  unfold later? at hlater
  split at hlater
  · obtain rfl := Option.some.inj hlater
    rfl
  · obtain ⟨next, -, rfl⟩ := Option.map_eq_some_iff.mp hlater
    rfl

/-- What is `n` nanoseconds later on the local clock is `n` greater. -/
theorem localNanos_later (hlater : t.later? n h = some later) :
    later.localNanos = t.localNanos + n := by
  unfold later? at hlater
  split at hlater
  · obtain rfl := Option.some.inj hlater
    simp only [localNanos_eq]
    omega
  · rename_i hturn
    obtain ⟨next, hnext, rfl⟩ := Option.map_eq_some_iff.mp hlater
    have hday := Date.dayNumber_next hnext
    rw [nanosPerDay_eq] at hturn
    simp only [localNanos_eq, hday, nanosPerDay_eq]
    omega

/-- If the calendar does not have what is `n` nanoseconds later, every moment is before it. -/
theorem localNanos_lt_of_later_none (hlater : t.later? n h = none) (s : DateTime) :
    s.localNanos < t.localNanos + n := by
  unfold later? at hlater
  split at hlater
  · cases hlater
  · rename_i hturn
    have hday := Date.dayNumber_le_last (Option.map_eq_none_iff.mp hlater) s.date
    have hnanos := s.nanos_lt
    rw [nanosPerDay_eq] at hturn hnanos
    simp only [localNanos_eq]
    omega

end DateTime

end SqlWeave.Time
