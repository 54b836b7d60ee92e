/-!
# Dates

The proleptic Gregorian calendar between the years -9999 and 9999. A `Date` holds a day
that exists : the month and the day are within their bounds. `Date.next?` is the day
after, and `Date.dayNumber` counts days, so that the two can be compared.
-/

namespace SqlWeave.Time

/-- Whether a year has a 29 February. -/
def isLeapYear (year : Int) : Bool :=
  year % 4 == 0 && (year % 100 != 0 || year % 400 == 0)

/-- How many days a month has. -/
def daysInMonth (year : Int) : Nat → Nat
  | 2 => if isLeapYear year then 29 else 28
  | 4 | 6 | 9 | 11 => 30
  | _ => 31

theorem daysInMonth_pos (year : Int) (month : Nat) : 1 ≤ daysInMonth year month := by
  unfold daysInMonth
  repeat' split
  all_goals decide

/-- A day of the calendar. -/
structure Date where
  year : Int
  month : Nat
  day : Nat
  year_bounds : -9999 ≤ year ∧ year ≤ 9999
  month_bounds : 1 ≤ month ∧ month ≤ 12
  day_bounds : 1 ≤ day ∧ day ≤ daysInMonth year month
  deriving DecidableEq, Repr

namespace Date

/-- The day with the given year, month and day of the month, if there is one. -/
def of? (year : Int) (month day : Nat) : Option Date :=
  if h : (-9999 ≤ year ∧ year ≤ 9999) ∧ (1 ≤ month ∧ month ≤ 12) ∧
      (1 ≤ day ∧ day ≤ daysInMonth year month) then
    some ⟨year, month, day, h.1, h.2.1, h.2.2⟩
  else none

/-- The day after, if the calendar has it. -/
def next? (d : Date) : Option Date :=
  if hd : d.day < daysInMonth d.year d.month then
    some ⟨d.year, d.month, d.day + 1, d.year_bounds, d.month_bounds, by omega, by omega⟩
  else if hm : d.month < 12 then
    some ⟨d.year, d.month + 1, 1, d.year_bounds, ⟨by omega, by omega⟩, by omega,
      daysInMonth_pos _ _⟩
  else if hy : d.year < 9999 then
    some ⟨d.year + 1, 1, 1, ⟨by have := d.year_bounds; omega, by omega⟩, by decide, by omega,
      daysInMonth_pos _ _⟩
  else none

/-- The days of a year before a month. -/
def daysBeforeMonth (year : Int) : Nat → Nat
  | 0 => 0
  | 1 => 0
  | month + 2 => daysBeforeMonth year (month + 1) + daysInMonth year (month + 1)

/-- The days from 1 January of the year 1 to 1 January of a year. -/
def daysBeforeYear (year : Int) : Int :=
  let past := year - 1
  365 * past + past / 4 - past / 100 + past / 400

/-- The days from 1 January of the year 1 to a day. -/
def dayNumber (d : Date) : Int :=
  daysBeforeYear d.year + daysBeforeMonth d.year d.month + (d.day - 1)

end Date

end SqlWeave.Time
