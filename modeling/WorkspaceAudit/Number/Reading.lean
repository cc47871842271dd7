import WorkspaceAudit.Number.Binary

/-!
# Readings of a stopwatch

A stopwatch shows seconds, as a whole number or as a binary floating point number. The time between
two whole readings is exact; if one of them is binary, both are taken as binary numbers.
-/

namespace WorkspaceAudit

inductive Reading where
  | whole (seconds : Int)
  | binary (seconds : Binary)
  deriving Repr, DecidableEq

/-- Why the time between two readings is no whole number of milliseconds. -/
inductive Unmeasurable where
  /-- A whole reading is beyond all binary numbers. -/
  | tooLarge
  /-- The time has no end. -/
  | endless
  /-- There is no time between the readings. -/
  | undefined
  deriving Repr, DecidableEq

namespace Reading

/-- The reading of zero. -/
def zero : Reading := .whole 0

/-- The nearest binary number to a reading. -/
def toBinary : Reading → Except Unmeasurable Binary
  | .binary x => .ok x
  | .whole n =>
    match Binary.ofScaled n 0 with
    | .infinite _ => .error .tooLarge
    | x => .ok x

/-- The whole milliseconds in a number of them, cut toward zero. -/
def wholeMs : Binary → Except Unmeasurable Int
  | .undefined => .error .undefined
  | x =>
    match x.truncate? with
    | some n => .ok n
    | none => .error .endless

/-- The whole milliseconds from one reading to another. -/
def elapsedMs : Reading → Reading → Except Unmeasurable Int
  | .whole start, .whole stop => .ok ((stop - start) * 1000)
  | start, stop => do
    let stop ← stop.toBinary
    let start ← start.toBinary
    wholeMs ((stop.sub start).scale 1000)

end Reading

end WorkspaceAudit
