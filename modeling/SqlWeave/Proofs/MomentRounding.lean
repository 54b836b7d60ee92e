import SqlWeave.Proofs.Calendar
import SqlWeave.Proofs.MomentReading

/-!
# Moments rounded

Local times are counted in microseconds along with the days, and each has a count of its own
(`Time.Clock.micros_injective`), so a count says every field. The literal of a moment is to say the
nearest microsecond, the later one of two as near, as long as the calendar goes on for half a
microsecond; at its end the literal says the microsecond that the moment is in
(`Time.DateTime.RoundsTo`). One local time is meant by that (`Time.DateTime.RoundsTo.unique`), and
every dialect writes it, to the places that it has (`Dialect.moment_rounds`).

In PostgreSQL the literal also says how far the local time is ahead of universal time, but to the
minute. The seconds of an offset are dropped towards zero, and the instant that is read is off by
them and by less than a microsecond (`Dialect.readMoment_instant`). So it is the instant of the
moment, to the microsecond, if the offset is in whole minutes, and not otherwise.
-/

namespace SqlWeave

namespace Time

/-! ## Counts -/

namespace Clock

/-- The microseconds since local midnight. -/
def microOfDay (c : Clock) : Nat :=
  (c.hour * 3600 + c.minute * 60 + c.second) * 1000000 + c.micro

/-- The microseconds from the start of the year 1, local time. -/
def micros (c : Clock) : Int := c.date.dayNumber * 86400000000 + c.microOfDay

theorem microOfDay_lt (c : Clock) : c.microOfDay < 86400000000 := by
  have := c.hour_lt
  have := c.minute_lt
  have := c.second_lt
  have := c.micro_lt
  simp only [microOfDay]
  omega

theorem eq_of_fields {c d : Clock} (hdate : c.date = d.date) (hhour : c.hour = d.hour)
    (hminute : c.minute = d.minute) (hsecond : c.second = d.second) (hmicro : c.micro = d.micro) :
    c = d := by
  cases c
  cases d
  simp_all

/-- A local time has a count of its own. -/
theorem micros_injective : Function.Injective micros := by
  intro c d h
  have hc := c.microOfDay_lt
  have hd := d.microOfDay_lt
  simp only [micros] at h
  -- A time of day is less than a day, so equal counts have equal days and equal times of day.
  have hday : c.date.dayNumber = d.date.dayNumber := by omega
  have htime : c.microOfDay = d.microOfDay := by omega
  have := c.minute_lt
  have := c.second_lt
  have := c.micro_lt
  have := d.minute_lt
  have := d.second_lt
  have := d.micro_lt
  simp only [microOfDay] at htime
  exact eq_of_fields (Date.dayNumber_injective hday) (by omega) (by omega) (by omega) (by omega)

end Clock

/-- The seconds by which local time is ahead of universal time. -/
def Zone.seconds (z : Zone) : Int :=
  let distance : Int := z.hours * 3600 + z.minutes * 60
  if z.behind then -distance else distance

/-- The nanoseconds from the start of the year 1, universal time. A local time without a zone
is taken for universal time. -/
def Stamp.instant (s : Stamp) : Int :=
  s.clock.micros * 1000 - s.zone.elim 0 Zone.seconds * nanosPerSecond

namespace DateTime

variable {t : DateTime}

/-- The local time of a moment cut to the microsecond has the count of the moment cut to it. -/
theorem micros_clock (t : DateTime) : t.clock.micros = t.localNanos / 1000 := by
  simp only [Clock.micros, Clock.microOfDay, clock, hour, minute, second, subsecond, secondOfDay,
    nanosPerSecond, localNanos_eq]
  omega

/-- The zone of a moment is its offset without the seconds. -/
theorem seconds_zone (t : DateTime) : t.zone.seconds = t.offset - t.offset.tmod 60 := by
  simp only [Zone.seconds, zone, decide_eq_true_eq]
  -- The sign is written apart and the distance is cut, so behind universal time the seconds are
  -- dropped from the opposite of the offset.
  split
  · have htmod : (-t.offset).tmod 60 = -t.offset % 60 := Int.tmod_eq_emod_of_nonneg (by omega)
    rw [Int.neg_tmod] at htmod
    omega
  · have htmod : t.offset.tmod 60 = t.offset % 60 := Int.tmod_eq_emod_of_nonneg (by omega)
    omega

/-! ## Rounding -/

/-- A local time is the nearest microsecond to a moment, the later one of two as near, if the
calendar has half a microsecond later, and else the microsecond that the moment is in. -/
structure RoundsTo (t : DateTime) (c : Clock) : Prop where
  nearest : (∃ later : DateTime, later.localNanos = t.localNanos + 500) →
    1000 * c.micros - 500 ≤ t.localNanos ∧ t.localNanos < 1000 * c.micros + 500
  cut : (¬∃ later : DateTime, later.localNanos = t.localNanos + 500) →
    1000 * c.micros ≤ t.localNanos ∧ t.localNanos < 1000 * c.micros + 1000

/-- There is one clock that a moment is rounded to. -/
theorem RoundsTo.unique {c d : Clock} (hc : t.RoundsTo c) (hd : t.RoundsTo d) : c = d := by
  refine Clock.micros_injective ?_
  by_cases h : ∃ later : DateTime, later.localNanos = t.localNanos + 500
  · have := hc.nearest h
    have := hd.nearest h
    omega
  · have := hc.cut h
    have := hd.cut h
    omega

/-- Half a microsecond later, where there is such a moment. -/
theorem localNanos_roundedUp (h : ∃ later : DateTime, later.localNanos = t.localNanos + 500) :
    t.roundedUp.localNanos = t.localNanos + 500 := by
  obtain ⟨later, hlater⟩ := h
  cases hround : t.later? 500 (by decide) with
  | none =>
    have := localNanos_lt_of_later_none hround later
    omega
  | some rounded =>
    rw [roundedUp, hround, Option.getD_some]
    exact localNanos_later hround

theorem roundedUp_eq_self (h : ¬∃ later : DateTime, later.localNanos = t.localNanos + 500) :
    t.roundedUp = t := by
  cases hround : t.later? 500 (by decide) with
  | none => rw [roundedUp, hround, Option.getD_none]
  | some rounded => exact absurd ⟨rounded, localNanos_later hround⟩ h

theorem offset_roundedUp (t : DateTime) : t.roundedUp.offset = t.offset := by
  cases hround : t.later? 500 (by decide) with
  | none => rw [roundedUp, hround, Option.getD_none]
  | some rounded =>
    rw [roundedUp, hround, Option.getD_some]
    exact offset_later hround

theorem zone_roundedUp (t : DateTime) : t.roundedUp.zone = t.zone := by
  simp only [zone, t.offset_roundedUp]

/-- A moment half a microsecond later, cut to the microsecond, is the moment rounded. -/
theorem roundsTo_roundedUp (t : DateTime) : t.RoundsTo t.roundedUp.clock where
  nearest h := by
    rw [micros_clock, localNanos_roundedUp h]
    omega
  cut h := by
    rw [micros_clock, roundedUp_eq_self h]
    omega

/-- Rounding changes a moment by less than a microsecond. -/
theorem RoundsTo.lt {c : Clock} (h : t.RoundsTo c) :
    (1000 * c.micros - t.localNanos).natAbs < 1000 := by
  by_cases hlater : ∃ later : DateTime, later.localNanos = t.localNanos + 500
  · have := h.nearest hlater
    omega
  · have := h.cut hlater
    omega

end DateTime

end Time

namespace Dialect

open Time

/-- There is one local time that a moment rounds to, carried through all of its fields, and the
literal of every dialect says this one : MySQL and ClickHouse with six decimals of the second,
SQLite with the first three of them, PostgreSQL with six and with the sign, the hours and the
minutes of the offset. -/
theorem moment_rounds (t : DateTime) :
    ∃ clock, t.RoundsTo clock ∧ (∀ other, t.RoundsTo other → other = clock) ∧
      ∀ d : Dialect, d.readMoment (d.moment t).toList = some (d.stamp clock t.zone) := by
  refine ⟨t.roundedUp.clock, t.roundsTo_roundedUp, fun _ h => h.unique t.roundsTo_roundedUp,
    fun d => ?_⟩
  rw [readMoment_moment, t.zone_roundedUp]

-- The last half microsecond of a year is written as the first microsecond of the next one.
example :
    Dialect.mysql.moment ⟨⟨2023, 12, 31, by decide, by decide, by decide⟩, 86399999999600, 28800,
      by decide, by decide⟩ = "'2024-01-01 00:00:00.000000'" := by
  rfl

/-- The instant that the PostgreSQL literal of a moment says is off by the seconds of the offset,
and by less than a microsecond. -/
theorem readMoment_instant (t : DateTime) :
    ∃ stamp, Dialect.postgres.readMoment (Dialect.postgres.moment t).toList = some stamp ∧
      (stamp.instant - (t.instant + t.offset.tmod 60 * nanosPerSecond)).natAbs < 1000 ∧
      ((stamp.instant - t.instant).natAbs < 1000 ↔ 60 ∣ t.offset) := by
  have hread := readMoment_moment .postgres t
  have hnear := t.roundsTo_roundedUp.lt
  have hinstant : (Dialect.postgres.stamp t.roundedUp.clock t.roundedUp.zone).instant =
      t.roundedUp.clock.micros * 1000 - (t.offset - t.offset.tmod 60) * nanosPerSecond := by
    rw [t.zone_roundedUp, ← t.seconds_zone]
    rfl
  refine ⟨_, hread, ?_⟩
  rw [hinstant, DateTime.instant, nanosPerSecond]
  constructor
  · omega
  · rw [Int.dvd_iff_tmod_eq_zero]
    omega

/-- Half a minute of an offset is not written, so the instant that is read is half a minute
late. -/
theorem readMoment_instant_half_minute :
    ∃ t, (Date.of? 2024 1 1).bind (DateTime.of? · 0 0 0 0 30) = some t ∧
      Dialect.postgres.moment t = "'2024-01-01 00:00:00.000000+00:00'" ∧
      ¬∃ stamp, Dialect.postgres.readMoment (Dialect.postgres.moment t).toList = some stamp ∧
        (stamp.instant - t.instant).natAbs < 1000 := by
  refine ⟨⟨⟨2024, 1, 1, by decide, by decide, by decide⟩, 0, 30, by decide, by decide⟩, by decide,
    by decide +kernel, ?_⟩
  rintro ⟨stamp, hread, hnear⟩
  rw [readMoment_moment] at hread
  obtain rfl := Option.some.inj hread
  exact absurd hnear (by decide)

end Dialect

end SqlWeave
