import SqlWeave.Text.Padded
import SqlWeave.Time.Date

/-!
# Dates with a time of day and an offset

A `DateTime` is a local date, the nanoseconds since local midnight, and the seconds by
which local time is ahead of universal time. Two of them are equal as structures when all
three agree; `DateTime.same` compares the instants that they denote.
-/

namespace SqlWeave.Time

/-- The nanoseconds of a second. -/
def nanosPerSecond : Nat := 1000000000

/-- The nanoseconds of a day. -/
def nanosPerDay : Nat := 86400 * nanosPerSecond

/-- A local date and time with its offset in seconds, less than 26 hours either way. -/
structure DateTime where
  date : Date
  nanos : Nat
  offset : Int
  nanos_lt : nanos < nanosPerDay
  offset_bounds : -93600 < offset ∧ offset < 93600
  deriving DecidableEq, Repr

namespace DateTime

/-- The whole seconds since local midnight. -/
def secondOfDay (t : DateTime) : Nat := t.nanos / nanosPerSecond

def hour (t : DateTime) : Nat := t.secondOfDay / 3600

def minute (t : DateTime) : Nat := t.secondOfDay / 60 % 60

def second (t : DateTime) : Nat := t.secondOfDay % 60

/-- The nanoseconds since the last whole second. -/
def subsecond (t : DateTime) : Nat := t.nanos % nanosPerSecond

/-- The moment with the given fields, if there is one. -/
def of? (date : Date) (hour minute second subsecond : Nat) (offset : Int) :
    Option DateTime :=
  let nanos := (hour * 3600 + minute * 60 + second) * nanosPerSecond + subsecond
  if h : nanos < nanosPerDay ∧ -93600 < offset ∧ offset < 93600 then
    some ⟨date, nanos, offset, h.1, h.2⟩
  else none

/-- The nanoseconds from the start of the year 1, local time. -/
def localNanos (t : DateTime) : Int := t.date.dayNumber * nanosPerDay + t.nanos

/-- The nanoseconds from the start of the year 1, universal time. -/
def instant (t : DateTime) : Int := t.localNanos - t.offset * nanosPerSecond

/-- Whether two moments are the same instant. -/
def same (s t : DateTime) : Bool := s.instant == t.instant

/-- The moment `n` nanoseconds later on the local clock, for `n` up to a day, if the
calendar still has it. -/
def later? (t : DateTime) (n : Nat) (h : n ≤ nanosPerDay) : Option DateTime :=
  if hn : t.nanos + n < nanosPerDay then
    some ⟨t.date, t.nanos + n, t.offset, hn, t.offset_bounds⟩
  else
    t.date.next?.map fun next =>
      ⟨next, t.nanos + n - nanosPerDay, t.offset, by have := t.nanos_lt; omega,
        t.offset_bounds⟩

/-- The moment half a microsecond later. Cut to whole microseconds it is the given one
rounded; at the end of the calendar, where it does not exist, the given one stands. -/
def roundedUp (t : DateTime) : DateTime := (t.later? 500 (by decide)).getD t

/-! ## Text -/

/-- A date as year, month and day, the year with at least four digits. -/
def dateText (d : Date) : List Char :=
  Text.paddedInt 4 d.year ++ '-' :: Text.padded 2 d.month ++ '-' :: Text.padded 2 d.day

/-- The sign of an offset, minus only for one behind universal time. -/
def offsetSign (t : DateTime) : Char := if t.offset < 0 then '-' else '+'

/-- The sign, hours and minutes of the offset. -/
def offsetText (t : DateTime) : List Char :=
  let seconds := t.offset.natAbs
  t.offsetSign :: Text.padded 2 (seconds / 3600) ++ ':' :: Text.padded 2 (seconds / 60 % 60)

/-- Minutes and seconds of the time of day. -/
def minuteSecondText (t : DateTime) : List Char :=
  Text.padded 2 t.minute ++ ':' :: Text.padded 2 t.second

/-- The local date and time with `places` decimals of the second, cut off. -/
def clockText (t : DateTime) (places : Nat) : List Char :=
  dateText t.date ++ ' ' :: Text.padded 2 t.hour ++ ':' :: t.minuteSecondText ++
    '.' :: Text.padded places (t.subsecond / Nat.pow 10 (9 - places))

/-- The nine decimals of the second without the zeros at their end, but at least one. -/
def subsecondText (t : DateTime) : List Char :=
  match (Text.padded 9 t.subsecond).reverse.dropWhile (· == '0') with
  | [] => ['0']
  | digits => digits.reverse

/-- A moment for people : the hour without a leading zero, the shortest fraction, and the
offset to the second. -/
def render (t : DateTime) : String :=
  .ofList <| dateText t.date ++ ' ' :: Nat.toDigits 10 t.hour ++ ':' :: t.minuteSecondText ++
    '.' :: t.subsecondText ++ ' ' :: t.offsetText ++
    ':' :: Text.padded 2 (t.offset.natAbs % 60)

end DateTime

end SqlWeave.Time
