import WorkspaceAudit.Text.Lines
import WorkspaceAudit.Text.Quoted
import WorkspaceAudit.Time.Text

/-!
# Moments in the forms of ISO 8601

A day is written by month or by week, with hyphens or without; any character may stand between the
day and the time; a time has hours and perhaps minutes, seconds and a fraction, with colons or
without; an offset is written like a time after its sign and may have seconds and a fraction.
`Iso.read` gives the moment or the first thing that is wrong with it.
-/

namespace WorkspaceAudit

/-- A moment with an offset to the microsecond, if it is known. -/
structure Iso where
  date : Date
  time : TimeOfDay
  offset : Option Int

namespace Iso

/-- The microseconds since the start of 1970 in universal time. A clock without an offset is read
as universal time. -/
def instant (m : Iso) : Int :=
  m.date.dayNumber * Moment.dayMicros + m.time.micros - m.offset.getD 0

inductive Error where
  | unreadable
  | year (n : Nat)
  | month
  | day
  | hour
  | minute
  | second
  /-- The offset in microseconds is a day or more. -/
  | offset (micros : Int)
  deriving Repr, DecidableEq

/-- A span of time as days, seconds and microseconds, of which only the days are below zero. -/
def spanText (micros : Int) : String :=
  let days := micros / Moment.dayMicros
  let rest := micros % Moment.dayMicros
  let parts := [("days", days), ("seconds", rest / 1000000), ("microseconds", rest % 1000000)]
  Text.join ", " ((parts.filter (·.2 != 0)).map fun (name, n) =>
    name ++ "=" ++ Text.Decimal.ofInt n)

/-- What is said about a text. -/
def Error.message (text : String) : Error → String
  | .unreadable => "Invalid isoformat string: " ++ Text.quoted text
  | .year n => "year " ++ Text.Decimal.ofNat n ++ " is out of range"
  | .month => "month must be in 1..12"
  | .day => "day is out of range for month"
  | .hour => "hour must be in 0..23"
  | .minute => "minute must be in 0..59"
  | .second => "second must be in 0..59"
  | .offset micros =>
    "offset must be a timedelta strictly between -timedelta(hours=24) and timedelta(hours=24), " ++
      "not datetime.timedelta(" ++ spanText micros ++ ")."

/-! ### Days -/

/-- Where the day ends. Four digits of the year are followed by months or by a week; after a week
the number of digits tells whether there is a day of the week. -/
def dayLength? (s : List Char) : Option Nat :=
  let isDigitAt (i : Nat) : Bool := (s[i]?).any Text.Decimal.isDigit
  if s.length < 7 then none
  else if s.length == 7 then some 7
  else if s[4]? == some '-' then
    if s[5]? == some 'W' then
      if s[8]? == some '-' then
        if s.length == 9 then none else if isDigitAt 10 then some 8 else some 10
      else some 8
    else some 10
  else if s[4]? == some 'W' then
    let last := 7 + ((s.drop 7).takeWhile Text.Decimal.isDigit).length
    if last < 9 then some last else if last % 2 == 0 then some 7 else some 8
  else some 8

/-- The number of the day on which the first week of a year begins. A week belongs to the year in
which its Thursday lies; days are numbered from the first day of the year 1, which is a Monday. -/
def firstMonday (year : Nat) : Int :=
  let first : Int := Date.daysBeforeYear year
  let weekday := first % 7
  if weekday > 3 then first - weekday + 7 else first - weekday

/-- The year has 53 weeks: it begins on a Thursday, or on a Wednesday with a leap day. -/
def hasLongWeeks (year : Nat) : Bool :=
  let weekday := Date.daysBeforeYear year % 7
  1 ≤ year && (weekday == 3 || (weekday == 2 && isLeapYear year))

/-- The day of a week of a year. The weeks of the year zero have no months. -/
def ofWeek (year week day : Nat) : Except Error Date :=
  if week < 1 || 53 < week || (week == 53 && !hasLongWeeks year) || day < 1 || 7 < day then
    .error .unreadable
  else if year == 0 then .error .month
  else
    match Date.ofDayNumber? (firstMonday year + (week - 1) * 7 + (day - 1) - Date.epoch) with
    | some date => .ok date
    | none => .error (.year (year + 1))

/-- The day of numbers, or the first number that is out of its range. -/
def ofMonth (year month day : Nat) : Except Error Date :=
  match Date.ofNumbers? year month day with
  | some date => .ok date
  | none =>
    .error (if year < 1 then .year year else if month < 1 || 12 < month then .month else .day)

/-- The day of the week after a week, which is the first one if the day ends there. -/
def readWeekday? (hyphens : Bool) (s : List Char) : Option Nat :=
  match s with
  | [] => some 1
  | _ => do
    let s ← if hyphens then Moment.after? '-' s else some s
    let (day, rest) ← Moment.digits? 1 0 s
    if rest.isEmpty then return day else none

/-- The month and the day of the month. -/
def readMonth? (hyphens : Bool) (s : List Char) : Option (Nat × Nat) := do
  let (month, s) ← Moment.digits? 2 0 s
  let s ← if hyphens then Moment.after? '-' s else some s
  let (day, rest) ← Moment.digits? 2 0 s
  if rest.isEmpty then return (month, day) else none

/-- The day that a text writes, to be checked after all of the text has been read. -/
def readDay (s : List Char) : Except Error (Except Error Date) :=
  match Moment.digits? 4 0 s with
  | none => .error .unreadable
  | some (year, s) =>
    let hyphens := s.head? == some '-'
    let s := if hyphens then s.tail else s
    match s with
    | 'W' :: s =>
      match Moment.digits? 2 0 s with
      | none => .error .unreadable
      | some (week, s) =>
        match readWeekday? hyphens s with
        | none => .error .unreadable
        | some day =>
          match ofWeek year week day with
          | .error .unreadable => .error .unreadable
          | date => .ok date
    | _ =>
      match readMonth? hyphens s with
      | none => .error .unreadable
      | some (month, day) => .ok (ofMonth year month day)

/-! ### Times -/

/-- Hours, minutes, seconds and microseconds. -/
structure Clock where
  hour : Nat
  minute : Nat
  second : Nat
  micro : Nat
  deriving Repr, DecidableEq

/-- The text ends here, or with a NUL character. -/
def isEnd (s : List Char) : Bool := s.isEmpty || s.head? == some '\x00'

/-- The fraction of a second. Its first six characters are digits; what follows more digits is left
out before an offset, which `zoned` tells, and else has to be the end. -/
def readFraction? (zoned : Bool) (s : List Char) : Option Nat :=
  let ds := s.take 6
  if !ds.isEmpty && ds.all Text.Decimal.isDigit &&
      (zoned || isEnd ((s.drop 6).dropWhile Text.Decimal.isDigit))
  then some (Moment.fractionMicros ds)
  else none

/-- At most `n` numbers of two digits and the fraction after them. There are colons between all of
them or none, as after the first one. A point or a comma begins the fraction after any number, and
so does what follows the last one. One more basic character may stand before an offset. -/
def readNumbers? (zoned : Bool) : Nat → Option Bool → List Char → Option (List Nat × Nat)
  | 0, _, s => (readFraction? zoned s).map fun micro => ([], micro)
  | n + 1, colons, s => do
    let (value, s) ← Moment.digits? 2 0 s
    match s with
    | [] => return ([value], 0)
    | [c] => if c == '\x00' || (zoned && c.toNat < 128) then return ([value], 0) else none
    | c :: rest =>
      let colons := colons.getD (c == ':')
      if c == '.' || c == ',' then
        let micro ← readFraction? zoned rest
        return ([value], micro)
      else if colons == (c == ':') then
        let (values, micro) ← readNumbers? zoned n (some colons) (if colons then rest else s)
        return (value :: values, micro)
      else none

/-- Hours and perhaps minutes, seconds and a fraction. -/
def readClock? (zoned : Bool) (s : List Char) : Option Clock := do
  let (values, micro) ← readNumbers? zoned 3 none s
  return ⟨values.headD 0, values.getD 1 0, values.getD 2 0, micro⟩

/-- An offset of less than a day. One of less than a second is none. -/
def ofOffset (negative : Bool) (c : Clock) : Except Error Int :=
  let seconds : Int := ((c.hour * 60 + c.minute) * 60 + c.second : Nat)
  let micros := if seconds == 0 then 0 else seconds * 1000000 + c.micro
  let micros := if negative then -micros else micros
  if -Moment.dayMicros < micros && micros < Moment.dayMicros then .ok micros
  else .error (.offset micros)

/-- The time of numbers, or the first number that is out of its range. -/
def ofClock (c : Clock) : Except Error TimeOfDay :=
  match TimeOfDay.ofNumbers? c.hour c.minute c.second c.micro with
  | some time => .ok time
  | none => .error (if 23 < c.hour then .hour else if 59 < c.minute then .minute else .second)

/-- The signs that begin an offset. -/
def isZoneSign (c : Char) : Bool := c == '+' || c == '-' || c == 'Z'

/-- A time and the offset after it. -/
def readTime (s : List Char) : Except Error (Clock × Option Int) :=
  let (clock, zone) := s.span fun c => !isZoneSign c
  match readClock? (!zone.isEmpty) clock with
  | none => .error .unreadable
  | some clock =>
    match zone with
    | [] => .ok (clock, none)
    | sign :: zone =>
      if sign == 'Z' then
        if isEnd zone then .ok (clock, some 0) else .error .unreadable
      else
        match readClock? false zone with
        | none => .error .unreadable
        | some offset => (ofOffset (sign == '-') offset).map fun micros => (clock, some micros)

/-- The moment that a text writes. -/
def read (s : List Char) : Except Error Iso :=
  match dayLength? s with
  | none => .error .unreadable
  | some n => do
    let date ← readDay (s.take n)
    let (clock, offset) ← match s.drop n with
      | [] => .ok (⟨0, 0, 0, 0⟩, none)
      | _ :: time => readTime time
    let date ← date
    let time ← ofClock clock
    return { date := date, time := time, offset := offset }

end Iso

end WorkspaceAudit
