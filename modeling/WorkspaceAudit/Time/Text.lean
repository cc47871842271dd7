import WorkspaceAudit.Text.Decimal
import WorkspaceAudit.Time.Moment

/-!
# Moments as text

`2026-03-01T09:30:00.000000+01:00`: the fraction is written only if it is not zero, universal time
is written `Z`, and a clock of unknown offset has none. Reading also takes a day alone, a time
without seconds, other separators, and a number of seconds since 1970, perhaps with a fraction and
an exponent. The year zero can be read, but no moment lies in it.
-/

namespace WorkspaceAudit

namespace Date

/-- Year, month and day with hyphens between them. -/
def text (d : Date) : String :=
  Text.Decimal.padded 4 d.year ++ "-" ++ Text.Decimal.padded 2 d.month ++ "-" ++
    Text.Decimal.padded 2 d.day

end Date

namespace TimeOfDay

/-- Hours, minutes and seconds with colons between them. -/
def clockText (t : TimeOfDay) : String :=
  Text.Decimal.padded 2 t.hour ++ ":" ++ Text.Decimal.padded 2 t.minute ++ ":" ++
    Text.Decimal.padded 2 t.second

/-- The time with its fraction, if that is not zero. -/
def text (t : TimeOfDay) : String :=
  if t.micro == 0 then t.clockText
  else t.clockText ++ "." ++ Text.Decimal.padded 6 t.micro

end TimeOfDay

namespace Offset

def text (o : Offset) : String :=
  if o.minutes == 0 then "Z"
  else
    (if o.minutes < 0 then "-" else "+") ++ Text.Decimal.padded 2 (o.minutes.natAbs / 60) ++ ":" ++
      Text.Decimal.padded 2 (o.minutes.natAbs % 60)

end Offset

namespace Moment

def text (m : Moment) : String :=
  m.date.text ++ "T" ++ m.time.text ++
    (match m.offset with
      | some offset => offset.text
      | none => "")

/-- Date and time to the second for readers. The year has no leading zeros. -/
def shown (m : Moment) : String :=
  Text.Decimal.ofNat m.date.year ++ "-" ++ Text.Decimal.padded 2 m.date.month ++ "-" ++
    Text.Decimal.padded 2 m.date.day ++ " " ++ m.time.clockText

/-- Why a text writes no moment. -/
inductive TextError where
  | unreadable
  /-- The year is zero. -/
  | outOfRange
  deriving Repr, DecidableEq

/-- The value of a basic Latin digit. -/
def digit? (c : Char) : Option Nat :=
  if Text.Decimal.isDigit c then some (Text.Decimal.digitValue c) else none

/-- A number of exactly `n` digits at the start of a text. -/
def digits? : Nat → Nat → List Char → Option (Nat × List Char)
  | 0, value, rest => some (value, rest)
  | n + 1, value, c :: rest => do
    let d ← digit? c
    digits? n (10 * value + d) rest
  | _ + 1, _, [] => none

/-- What follows a character at the start of a text. -/
def after? (c : Char) : List Char → Option (List Char)
  | d :: rest => if c == d then some rest else none
  | [] => none

/-- Year, month and day at the start of a text. -/
def readDay? (s : List Char) : Option ((Nat × Nat × Nat) × List Char) := do
  let (year, s) ← digits? 4 0 s
  let s ← after? '-' s
  let (month, s) ← digits? 2 0 s
  let s ← after? '-' s
  let (day, s) ← digits? 2 0 s
  if isDay year month day then return ((year, month, day), s) else none

/-- The microseconds of the digits of a fraction: the first six of them. -/
def fractionMicros (ds : List Char) : Nat :=
  Text.Decimal.value ((ds ++ List.replicate 6 '0').take 6)

/-- The fraction of a second, with a point or a comma in front. -/
def readFraction? : List Char → Option (Nat × List Char)
  | c :: rest =>
    if c == '.' || c == ',' then
      match rest.span Text.Decimal.isDigit with
      | ([], _) => none
      | (ds, rest) => some (fractionMicros ds, rest)
    else some (0, c :: rest)
  | [] => some (0, [])

/-- The seconds with their fraction, if there are any. -/
def readSeconds? (s : List Char) : Option (Nat × Nat × List Char) :=
  match after? ':' s with
  | none => some (0, 0, s)
  | some s => do
    let (second, s) ← digits? 2 0 s
    let (micro, s) ← readFraction? s
    return (second, micro, s)

/-- A time of day at the start of a text. -/
def readTime? (s : List Char) : Option (TimeOfDay × List Char) := do
  let (hour, s) ← digits? 2 0 s
  let s ← after? ':' s
  let (minute, s) ← digits? 2 0 s
  let (second, micro, s) ← readSeconds? s
  let time ← TimeOfDay.ofNumbers? hour minute second micro
  return (time, s)

/-- The hours and minutes of an offset. -/
def readOffset? (negative : Bool) (s : List Char) : Option (Offset × List Char) := do
  let (hours, s) ← digits? 2 0 s
  let s := (after? ':' s).getD s
  let (minutes, s) ← digits? 2 0 s
  if minutes < 60 then
    let total : Int := ((hours * 60 + minutes : Nat) : Int)
    let offset ← Offset.ofMinutes? (if negative then -total else total)
    return (offset, s)
  else none

/-- The offset after a time, if there is any. -/
def readZone? : List Char → Option (Option Offset × List Char)
  | [] => some (none, [])
  | c :: rest =>
    if c == 'Z' || c == 'z' then some (some .zero, rest)
    else if c == '+' then (readOffset? false rest).map fun (o, rest) => (some o, rest)
    else if c == '-' || c == '\u2212' then
      (readOffset? true rest).map fun (o, rest) => (some o, rest)
    else none

/-- The characters that may stand between a date and a time. -/
def separators : List Char := ['T', 't', ' ', '_']

/-- The time and the offset after a date. -/
def readClock? : List Char → Option (TimeOfDay × Option Offset)
  | [] => do
    let midnight ← TimeOfDay.ofMicros? 0
    return (midnight, none)
  | c :: s =>
    if separators.contains c then do
      let (time, s) ← readTime? s
      let (offset, s) ← readZone? s
      if s.isEmpty then return (time, offset) else none
    else none

/-- A date, or a date and a time. -/
def readCalendar? (s : List Char) :
    Option ((Nat × Nat × Nat) × TimeOfDay × Option Offset) := do
  let (day, s) ← readDay? s
  let (time, offset) ← readClock? s
  return (day, time, offset)

/-- The exponent after a number, which ends the text. -/
def readExponent? : List Char → Option Int
  | [] => some 0
  | c :: s =>
    if c == 'e' || c == 'E' then
      let (negative, ds) := match s with
        | '-' :: rest => (true, rest)
        | '+' :: rest => (false, rest)
        | _ => (false, s)
      if !ds.isEmpty && ds.all Text.Decimal.isDigit then
        let n : Int := Text.Decimal.value ds
        some (if negative then -n else n)
      else none
    else none

/-- The instant of a number of seconds since 1970, perhaps with a fraction. A number without a point
has at most 64 bits, and only one with a point has an exponent. -/
def readUnix? (s : List Char) : Option Int :=
  let (negative, s) := match s with
    | '-' :: rest => (true, rest)
    | '+' :: rest => (false, rest)
    | _ => (false, s)
  let (ds, rest) := s.span Text.Decimal.isDigit
  match rest with
  | [] =>
    let whole := Text.Decimal.value ds
    if ds.isEmpty || Nat.pow 2 63 ≤ whole then none
    else some (instantOfSeconds (if negative then -whole else whole))
  | '.' :: rest => do
    let (frac, rest) := rest.span Text.Decimal.isDigit
    let exponent ← readExponent? rest
    if ds.isEmpty && frac.isEmpty then none
    else
      instantOfBinary?
        (.ofDecimal negative (Text.Decimal.value (ds ++ frac)) (exponent - frac.length))
  | _ => none

/-- The moment that a text writes. -/
def ofText (s : List Char) : Except TextError Moment :=
  match readCalendar? s with
  | some ((year, month, day), time, offset) =>
    match Date.ofNumbers? year month day with
    | some date => .ok { date := date, time := time, offset := offset }
    | none => .error .outOfRange
  | none =>
    match readUnix? s with
    | none => .error .unreadable
    | some n =>
      match ofInstant? n with
      | some m => .ok m
      | none => .error (if isInYearZero n then .outOfRange else .unreadable)

end Moment

end WorkspaceAudit
