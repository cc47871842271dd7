import WorkspaceAudit.Number.Binary

/-!
# Moments

A moment is a day of the calendar, a time of that day to the microsecond and, if it is known, the
offset of the clock from universal time.

- `Date.dayNumber` and `Date.ofDayNumber?` number the days;
- `Moment.instant` is the time since the start of 1970;
- `Moment.instantOfSeconds` and `Moment.instantOfBinary?` are the instants of a number of seconds
  since then.
-/

namespace WorkspaceAudit

/-- Every fourth year but the full centuries, of which every fourth, is a leap year. -/
def isLeapYear (year : Nat) : Bool :=
  year % 4 == 0 && (year % 100 != 0 || year % 400 == 0)

/-- The number of days of a month. -/
def monthLength (year month : Nat) : Nat :=
  if month == 2 then if isLeapYear year then 29 else 28
  else if month == 4 || month == 6 || month == 9 || month == 11 then 30
  else 31

/-- The numbers are those of a day in the years 0 to 9999. -/
def isDay (year month day : Nat) : Bool :=
  year ≤ 9999 && 1 ≤ month && month ≤ 12 && 1 ≤ day && day ≤ monthLength year month

/-- The numbers are those of a day in the years 1 to 9999. -/
def isDate (year month day : Nat) : Bool :=
  1 ≤ year && isDay year month day

/-- A day of the calendar. -/
structure Date where
  year : Nat
  month : Nat
  day : Nat
  valid : isDate year month day = true
  deriving DecidableEq

/-- A time of day, in microseconds since midnight. -/
structure TimeOfDay where
  micros : Nat
  valid : micros < 86400000000
  deriving DecidableEq

/-- The offset of a clock from universal time, in minutes: less than a day. -/
structure Offset where
  minutes : Int
  valid : -1440 < minutes ∧ minutes < 1440
  deriving DecidableEq

structure Moment where
  date : Date
  time : TimeOfDay
  /-- The offset from universal time, if it is known. -/
  offset : Option Offset
  deriving DecidableEq

namespace Date

def ofNumbers? (year month day : Nat) : Option Date :=
  if h : isDate year month day = true then some ⟨year, month, day, h⟩ else none

/-- The days of the years before a year. -/
def daysBeforeYear (year : Nat) : Nat :=
  let y := year - 1
  y * 365 + y / 4 - y / 100 + y / 400

/-- The days of the months before a month. -/
def daysBeforeMonth (year month : Nat) : Nat :=
  (List.range (month - 1)).foldr (fun m days => monthLength year (m + 1) + days) 0

/-- The days of the years before 1970. -/
def epoch : Nat := 719162

/-- The number of the day, counted from the start of 1970. -/
def dayNumber (d : Date) : Int :=
  (daysBeforeYear d.year + daysBeforeMonth d.year d.month + d.day : Nat) - 1 - (epoch : Int)

/-- The month and day of the day of a year that has `rest` days before it, searched from a month
on. -/
def monthAndDay (year : Nat) : Nat → Nat → Nat → Nat × Nat
  | 0, month, rest => (month, rest + 1)
  | fuel + 1, month, rest =>
    if rest < monthLength year month then (month, rest + 1)
    else monthAndDay year fuel (month + 1) (rest - monthLength year month)

/-- The day of a number. The year is guessed from the mean length of a year, which is at most one
year off. -/
def ofDayNumber? (n : Int) : Option Date :=
  let total := n + epoch
  if total < 0 then none
  else
    let days := total.toNat
    let guess := days * 400 / 146097 + 1
    let year :=
      if days < daysBeforeYear guess then guess - 1
      else if daysBeforeYear (guess + 1) ≤ days then guess + 1
      else guess
    let (month, day) := monthAndDay year 12 1 (days - daysBeforeYear year)
    ofNumbers? year month day

end Date

namespace TimeOfDay

def ofMicros? (n : Nat) : Option TimeOfDay :=
  if h : n < 86400000000 then some ⟨n, h⟩ else none

/-- The time of hours, minutes, seconds and microseconds, if each is in its range. -/
def ofNumbers? (hour minute second micro : Nat) : Option TimeOfDay :=
  if hour < 24 && minute < 60 && second < 60 && micro < 1000000 then
    ofMicros? (((hour * 60 + minute) * 60 + second) * 1000000 + micro)
  else none

def hour (t : TimeOfDay) : Nat := t.micros / 3600000000
def minute (t : TimeOfDay) : Nat := t.micros / 60000000 % 60
def second (t : TimeOfDay) : Nat := t.micros / 1000000 % 60
def micro (t : TimeOfDay) : Nat := t.micros % 1000000

end TimeOfDay

namespace Offset

def ofMinutes? (n : Int) : Option Offset :=
  if h : -1440 < n ∧ n < 1440 then some ⟨n, h⟩ else none

/-- Universal time. -/
def zero : Offset := ⟨0, by decide⟩

end Offset

namespace Moment

/-- Microseconds in a day. -/
def dayMicros : Int := 86400000000

/-- The microseconds since the start of 1970 in universal time. A clock without an offset is read
as universal time. -/
def instant (m : Moment) : Int :=
  m.date.dayNumber * dayMicros + m.time.micros -
    (match m.offset with
      | some offset => offset.minutes * 60000000
      | none => 0)

/-- The moment of a number of microseconds since the start of 1970, in universal time. -/
def ofInstant? (n : Int) : Option Moment := do
  let date ← Date.ofDayNumber? (n / dayMicros)
  let time ← TimeOfDay.ofMicros? (n % dayMicros).toNat
  return { date := date, time := time, offset := some .zero }

/-- Numbers of seconds up to this one are seconds; greater ones are milliseconds. -/
def greatestSeconds : Nat := 20000000000

/-- The instant of a number of seconds since the start of 1970. A number too great for seconds
counts milliseconds. -/
def instantOfSeconds (n : Int) : Int :=
  if n.natAbs ≤ greatestSeconds then n * 1000000 else n * 1000

/-- The instant of a finite number of seconds since the start of 1970, to the nearest microsecond.
The whole part below the number and the fraction above it are taken apart. -/
def instantOfBinary? (x : Binary) : Option Int := do
  let unit := if x.exceeds greatestSeconds then 1000 else 1000000
  let whole ← x.floor?
  let fraction ← ((x.sub (.ofScaled whole 0)).scale unit).round?
  return whole * unit + fraction

/-- The instant lies in the year zero. -/
def isInYearZero (n : Int) : Bool :=
  -62167219200000000 ≤ n && n < -62135596800000000

end Moment

end WorkspaceAudit
