import SqlWeave.Literal

/-!
# Moments read back

A moment is written out as a quoted local time, field by field, each number with a fixed count of
digits. The reader of such a literal takes the characters from the left (`Text.Reader`) : numbers of
exactly so many decimal digits, a year with a minus in front if it is negative, and the separators
between them. A day that the calendar does not have is refused, as is an hour of a day, a minute or
a second out of bounds. What the literal says is a `Time.Stamp` : a date and a time of day to the
microsecond, and in PostgreSQL also how far it is ahead of universal time.

What is written by one reader is followed by what is written for the next one, so each is shown to
take what is written for it and leave whatever follows (`Text.Reads`). The literal of a moment is
read to its end, as the fields of the moment rounded up, cut to the places of the dialect
(`Dialect.readMoment_moment`).
-/

namespace SqlWeave

namespace Text

/-! ## Numbers of a fixed width -/

variable {width n : Nat}

theorem length_padded (hwidth : 0 < width) (h : n < Nat.pow 10 width) :
    (padded width n).length = width := by
  have hdigits := (Nat.length_toDigits_le_iff (by decide) hwidth).mpr h
  simp only [padded, List.length_append, List.length_replicate]
  exact Nat.sub_add_cancel hdigits

theorem isDigit_of_mem_padded {c : Char} (hc : c ∈ padded width n) : c.isDigit = true := by
  rcases List.mem_append.mp hc with hzero | hdigit
  · rw [List.eq_of_mem_replicate hzero]
    rfl
  · exact Nat.isDigit_of_mem_toDigits (by decide) (by decide) hdigit

/-- Zeros in front do not change a number. -/
theorem ofDigitChars_padded (width n : Nat) : Nat.ofDigitChars 10 (padded width n) 0 = n := by
  rw [padded, Nat.ofDigitChars_append, Nat.ofDigitChars_replicate_zero, Nat.mul_zero,
    Nat.ofDigitChars_ten_toDigits]

/-! ## Readers -/

/-- A reader of characters from the left. It says what they mean and which ones it left. -/
abbrev Reader := StateT (List Char) Option

/-- A certain character. -/
def char (c : Char) : Reader Unit
  | [] => none
  | x :: rest => if x = c then some ((), rest) else none

/-- Whether a minus stands in front. -/
def minus : Reader Bool
  | '-' :: rest => some (true, rest)
  | cs => some (false, cs)

/-- A plus or a minus, and whether it is the minus. -/
def sign : Reader Bool
  | '+' :: rest => some (false, rest)
  | '-' :: rest => some (true, rest)
  | _ => none

/-- A number of exactly `width` decimal digits. -/
def number (width : Nat) : Reader Nat := fun cs =>
  let digits := cs.take width
  if digits.length = width ∧ digits.all Char.isDigit then
    some (Nat.ofDigitChars 10 digits 0, cs.drop width)
  else none

/-- A number of exactly `width` decimal digits, behind a minus if it is negative. -/
def integer (width : Nat) : Reader Int := do
  let negative ← minus
  let n ← number width
  return if negative then -(n : Int) else n

/-- Something between single quotes. -/
def quoted {α : Type} (inner : Reader α) : Reader α := do
  char '\''
  let a ← inner
  char '\''
  return a

/-- What a reader says of a whole text. -/
def whole? {α : Type} (r : Reader α) (cs : List Char) : Option α :=
  (r.run cs).bind fun (a, rest) => if rest = [] then some a else none

/-- A reader takes `cs` for `a`, whatever follows. -/
def Reads {α : Type} (r : Reader α) (cs : List Char) (a : α) : Prop :=
  ∀ rest, r.run (cs ++ rest) = some (a, rest)

namespace Reads

variable {α β : Type} {r : Reader α} {f : α → Reader β} {cs ds : List Char} {a : α} {b : β}

theorem pure (a : α) : Reads (Pure.pure a : Reader α) [] a :=
  fun _ => rfl

/-- A check that holds takes nothing. -/
theorem lift {x : Option α} (h : x = some a) : Reads (StateT.lift x) [] a := by
  subst h
  exact fun _ => rfl

/-- What is written for one reader and what is written for the next one, side by side. -/
theorem bind (hr : Reads r cs a) (hf : Reads (f a) ds b) : Reads (r >>= f) (cs ++ ds) b := by
  intro rest
  rw [List.append_assoc, StateT.run_bind, hr]
  exact hf rest

theorem char_bind (c : Char) {f : Unit → Reader β} (hf : Reads (f ()) ds b) :
    Reads (char c >>= f) (c :: ds) b := by
  have hc : Reads (char c) [c] () := fun rest => if_pos rfl
  exact hc.bind hf

theorem last (hr : Reads r cs a) (f : α → β) :
    Reads (r >>= fun a => Pure.pure (f a)) cs (f a) := by
  have hread := hr.bind (f := fun a => Pure.pure (f a)) (pure (f a))
  rwa [List.append_nil] at hread

/-- A number of a certain width is read back. -/
theorem number (hwidth : 0 < width) (h : n < Nat.pow 10 width) :
    Reads (Text.number width) (padded width n) n := by
  intro rest
  have hlength := length_padded hwidth h
  have hdigits : (padded width n).all Char.isDigit :=
    List.all_eq_true.mpr fun _ hc => isDigit_of_mem_padded hc
  show (if _ then _ else _) = _
  rw [List.take_left' hlength, List.drop_left' hlength, if_pos ⟨hlength, hdigits⟩,
    ofDigitChars_padded]

/-- A padded number begins with a digit, so there is no minus in front of it. -/
theorem not_minus (hwidth : 0 < width) (h : n < Nat.pow 10 width) (rest : List Char) :
    minus.run (padded width n ++ rest) = some (false, padded width n ++ rest) := by
  obtain ⟨c, cs, hcs⟩ := List.exists_cons_of_length_pos (length_padded hwidth h ▸ hwidth)
  have hc : c ≠ '-' := by
    rintro rfl
    exact absurd (isDigit_of_mem_padded (hcs ▸ List.mem_cons_self)) (by decide)
  rw [hcs, List.cons_append]
  exact minus.eq_2 _ fun _ hminus => hc (List.cons.inj hminus).1

/-- So is an integer with its sign. -/
theorem integer {z : Int} (hwidth : 0 < width) (h : z.natAbs < Nat.pow 10 width) :
    Reads (Text.integer width) (paddedInt width z) z := by
  have hnumber := number hwidth h
  rw [paddedInt]
  by_cases hz : z < 0
  · have hvalue : (if true = true then -(z.natAbs : Int) else z.natAbs) = z := by
      rw [if_pos rfl]
      omega
    have hminus : Reads minus ['-'] true := fun _ => rfl
    have hread : Reads (Text.integer width) _ _ := hminus.bind (hnumber.last _)
    rw [hvalue] at hread
    rwa [if_pos hz]
  · have hvalue : (if false = true then -(z.natAbs : Int) else z.natAbs) = z := by
      rw [if_neg nofun]
      omega
    -- Nothing is written for the sign, so it depends on what follows that none is read.
    intro rest
    have hread := hnumber.last (fun n => if false = true then -(n : Int) else n) rest
    rw [hvalue] at hread
    rwa [if_neg hz, List.nil_append, Text.integer, StateT.run_bind, not_minus hwidth h]

theorem quoted (hr : Reads r cs a) : Reads (Text.quoted r) ('\'' :: (cs ++ ['\''])) a :=
  char_bind '\'' (hr.bind (char_bind '\'' (pure a)))

/-- A text that is read from its start to its end is read as a whole. -/
theorem whole?_eq (hr : Reads r cs a) : whole? r cs = some a := by
  have hend := hr []
  rw [List.append_nil] at hend
  rw [whole?, hend]
  rfl

end Reads

end Text

namespace Time

open Text (Reader Reads padded char number integer)

/-! ## What a literal says -/

/-- A local date and a time of day to the microsecond. -/
structure Clock where
  date : Date
  hour : Nat
  minute : Nat
  second : Nat
  micro : Nat
  hour_lt : hour < 24
  minute_lt : minute < 60
  second_lt : second < 60
  micro_lt : micro < 1000000
  deriving DecidableEq

namespace Clock

/-- The clock with the given fields, if they are within their bounds. -/
def of? (date : Date) (hour minute second micro : Nat) : Option Clock :=
  if h : hour < 24 ∧ minute < 60 ∧ second < 60 ∧ micro < 1000000 then
    some ⟨date, hour, minute, second, micro, h.1, h.2.1, h.2.2.1, h.2.2.2⟩
  else none

/-- The clock with only so many decimals of its second. -/
def cut (c : Clock) (places : Nat) : Clock :=
  { c with
    micro := c.micro / Nat.pow 10 (6 - places) * Nat.pow 10 (6 - places)
    micro_lt := Nat.lt_of_le_of_lt (Nat.div_mul_le_self _ _) c.micro_lt }

theorem cut_six (c : Clock) : c.cut 6 = c := by
  simp [cut]

end Clock

/-- How far a local time is ahead of universal time or behind it, to the minute. -/
structure Zone where
  behind : Bool
  hours : Nat
  minutes : Nat
  deriving DecidableEq

/-- What the literal of a moment says. -/
structure Stamp where
  clock : Clock
  zone : Option Zone
  deriving DecidableEq

namespace DateTime

variable (t : DateTime)

/-- The local date and time of a moment, cut to the microsecond. -/
def clock : Clock where
  date := t.date
  hour := t.hour
  minute := t.minute
  second := t.second
  micro := t.subsecond / 1000
  hour_lt := by
    have := t.nanos_lt
    simp only [hour, secondOfDay, nanosPerDay, nanosPerSecond] at *
    omega
  minute_lt := Nat.mod_lt _ (by decide)
  second_lt := Nat.mod_lt _ (by decide)
  micro_lt := by
    simp only [subsecond, nanosPerSecond]
    omega

/-- The sign of the offset of a moment, its hours and its minutes. -/
def zone : Zone where
  behind := decide (t.offset < 0)
  hours := t.offset.natAbs / 3600
  minutes := t.offset.natAbs / 60 % 60

end DateTime

/-! ## Readers of moments -/

def readDate : Reader Date := do
  let year ← integer 4
  char '-'
  let month ← number 2
  char '-'
  let day ← number 2
  StateT.lift (Date.of? year month day)

/-- A date and a time of day with so many decimals of the second. -/
def readClock (places : Nat) : Reader Clock := do
  let date ← readDate
  char ' '
  let hour ← number 2
  char ':'
  let minute ← number 2
  char ':'
  let second ← number 2
  char '.'
  let fraction ← number places
  StateT.lift (Clock.of? date hour minute second (fraction * Nat.pow 10 (6 - places)))

def readZone : Reader Zone := do
  let behind ← Text.sign
  let hours ← number 2
  char ':'
  let minutes ← number 2
  return ⟨behind, hours, minutes⟩

theorem Date.of?_eq (d : Date) : Date.of? d.year d.month d.day = some d :=
  dif_pos ⟨d.year_bounds, d.month_bounds, d.day_bounds⟩

theorem Clock.of?_eq (c : Clock) : Clock.of? c.date c.hour c.minute c.second c.micro = some c :=
  dif_pos ⟨c.hour_lt, c.minute_lt, c.second_lt, c.micro_lt⟩

theorem daysInMonth_le (year : Int) (month : Nat) : daysInMonth year month ≤ 31 := by
  unfold daysInMonth
  repeat' split
  all_goals decide

/-- A date is read back. -/
theorem reads_date (d : Date) : Reads readDate (DateTime.dateText d) d := by
  have hyear := d.year_bounds
  have hmonth := d.month_bounds
  have hday := d.day_bounds
  have hdays := daysInMonth_le d.year d.month
  have htext : DateTime.dateText d = Text.paddedInt 4 d.year ++
      '-' :: (padded 2 d.month ++ '-' :: (padded 2 d.day ++ [])) := by
    simp [DateTime.dateText]
  rw [htext]
  refine (Reads.integer (by decide) (show _ < 10000 by omega)).bind ?_
  refine Reads.char_bind '-' ((Reads.number (by decide) (show _ < 100 by omega)).bind ?_)
  refine Reads.char_bind '-' ((Reads.number (by decide) (show _ < 100 by omega)).bind ?_)
  exact Reads.lift d.of?_eq

/-- The decimals that are written are the first ones of the microseconds. -/
theorem subsecond_div (t : DateTime) {places : Nat} (h : places ≤ 6) :
    t.subsecond / Nat.pow 10 (9 - places) = t.clock.micro / Nat.pow 10 (6 - places) := by
  have hplaces : 9 - places = 3 + (6 - places) := by omega
  show t.subsecond / 10 ^ (9 - places) = t.subsecond / 10 ^ 3 / 10 ^ (6 - places)
  rw [hplaces, Nat.pow_add, Nat.div_div_eq_div_mul]

/-- A local time that is written with some decimals is read with as many. -/
theorem reads_clock (t : DateTime) {places : Nat} (hpos : 0 < places) (h : places ≤ 6) :
    Reads (readClock places) (t.clockText places) (t.clock.cut places) := by
  have hhour := t.clock.hour_lt
  have hminute := t.clock.minute_lt
  have hsecond := t.clock.second_lt
  have hfraction : t.clock.micro / Nat.pow 10 (6 - places) < Nat.pow 10 places := by
    have hpow := Nat.pow_add 10 (6 - places) places
    rw [Nat.sub_add_cancel h] at hpow
    exact Nat.div_lt_of_lt_mul (Nat.lt_of_lt_of_eq t.clock.micro_lt hpow)
  have htext : t.clockText places = DateTime.dateText t.date ++ ' ' :: (padded 2 t.clock.hour ++
      ':' :: (padded 2 t.clock.minute ++ ':' :: (padded 2 t.clock.second ++
      '.' :: (padded places (t.clock.micro / Nat.pow 10 (6 - places)) ++ [])))) := by
    rw [← subsecond_div t h]
    simp [DateTime.clockText, DateTime.minuteSecondText, DateTime.clock]
  rw [htext]
  refine (reads_date t.date).bind ?_
  refine Reads.char_bind ' ' ((Reads.number (by decide) (show _ < 100 by omega)).bind ?_)
  refine Reads.char_bind ':' ((Reads.number (by decide) (show _ < 100 by omega)).bind ?_)
  refine Reads.char_bind ':' ((Reads.number (by decide) (show _ < 100 by omega)).bind ?_)
  refine Reads.char_bind '.' ((Reads.number hpos hfraction).bind ?_)
  exact Reads.lift (t.clock.cut places).of?_eq

/-- An offset is read back as the zone that it was written for. -/
theorem reads_zone (t : DateTime) : Reads readZone t.offsetText t.zone := by
  have hoffset := t.offset_bounds
  have hsign : Reads Text.sign [t.offsetSign] (decide (t.offset < 0)) := by
    by_cases h : t.offset < 0 <;> simp only [DateTime.offsetSign, h, if_true, if_false] <;>
      exact fun _ => rfl
  have htext : t.offsetText = [t.offsetSign] ++ (padded 2 t.zone.hours ++
      ':' :: padded 2 t.zone.minutes) := by
    simp [DateTime.offsetText, DateTime.zone]
  rw [htext]
  refine hsign.bind ?_
  refine (Reads.number (by decide) (show _ < 100 from ?_)).bind ?_
  · simp only [DateTime.zone]
    omega
  refine Reads.char_bind ':' ((Reads.number (by decide) (show _ < 100 from ?_)).last _)
  simp only [DateTime.zone]
  omega

end Time

namespace Dialect

open Time

/-- What stands between the quotes of a moment : six decimals of the second, three of them in
SQLite, and the zone in PostgreSQL. -/
def readStamp : Dialect → Text.Reader Stamp
  | .mysql | .clickhouse => do return ⟨← readClock 6, none⟩
  | .sqlite => do return ⟨← readClock 3, none⟩
  | .postgres => do
    let clock ← readClock 6
    return ⟨clock, ← readZone⟩

/-- What a whole literal says of a moment. -/
def readMoment (d : Dialect) (cs : List Char) : Option Stamp :=
  Text.whole? (Text.quoted d.readStamp) cs

/-- What a dialect says of a local time and its zone. -/
def stamp (clock : Clock) (zone : Zone) : Dialect → Stamp
  | .mysql | .clickhouse => ⟨clock, none⟩
  | .sqlite => ⟨clock.cut 3, none⟩
  | .postgres => ⟨clock, zone⟩

/-- The literal of a moment says the local time and the zone of the moment rounded up. -/
theorem readMoment_moment (d : Dialect) (t : DateTime) :
    d.readMoment (d.moment t).toList = some (d.stamp t.roundedUp.clock t.roundedUp.zone) := by
  have hsix : Text.Reads (readClock 6) (t.roundedUp.clockText 6) t.roundedUp.clock := by
    have hcut := reads_clock t.roundedUp (by decide : 0 < 6) (by decide)
    rwa [Clock.cut_six] at hcut
  rw [moment, String.toList_ofList]
  refine (Text.Reads.quoted ?_).whole?_eq
  cases d with
  | mysql => exact hsix.last _
  | sqlite => exact (reads_clock t.roundedUp (by decide) (by decide)).last _
  | postgres => exact hsix.bind ((reads_zone t.roundedUp).last _)
  | clickhouse => exact hsix.last _

end Dialect

end SqlWeave
