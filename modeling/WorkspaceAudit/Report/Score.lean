import WorkspaceAudit.Finding.Basic

/-!
# Scores

Every finding costs points by its severity, up to all hundred. The grade follows from what is left,
but a critical finding always gives the worst one.
-/

namespace WorkspaceAudit

/-- Grades, the best first. -/
inductive Grade where
  | a
  | b
  | c
  | d
  | f
  deriving Repr, DecidableEq

namespace Grade

def all : List Grade := [.a, .b, .c, .d, .f]

def name : Grade → String
  | .a => "A"
  | .b => "B"
  | .c => "C"
  | .d => "D"
  | .f => "F"

def ofName? (s : String) : Option Grade :=
  all.find? (·.name == s)

end Grade

/-- How many findings there are of each severity. A summary that is read from a file may hold any
integers. -/
structure Summary where
  critical : Int := 0
  high : Int := 0
  medium : Int := 0
  low : Int := 0
  info : Int := 0
  deriving Repr, DecidableEq

namespace Summary

def count (s : Summary) : Severity → Int
  | .critical => s.critical
  | .high => s.high
  | .medium => s.medium
  | .low => s.low
  | .info => s.info

/-- The counts of a list of findings. -/
def ofFindings (findings : List Finding) : Summary :=
  let number (severity : Severity) : Int := findings.countP (·.severity == severity)
  { critical := number .critical, high := number .high, medium := number .medium,
    low := number .low, info := number .info }

end Summary

/-- The points that a finding costs. -/
def Severity.penalty : Severity → Nat
  | .critical => 30
  | .high => 10
  | .medium => 3
  | .low => 1
  | .info => 0

namespace Summary

/-- The points that all findings cost together. -/
def penalty (s : Summary) : Int :=
  Severity.all.foldr (fun severity rest => severity.penalty * s.count severity + rest) 0

end Summary

/-- The least number of points for each grade but the worst. -/
def Grade.thresholds : List (Int × Grade) := [(90, .a), (75, .b), (60, .c), (40, .d)]

/-- The grade for a number of points; a critical finding always gives the worst one. -/
def Grade.ofPoints (points : Int) (hasCritical : Bool) : Grade :=
  if hasCritical then .f
  else
    match thresholds.find? fun t => t.1 ≤ points with
    | some (_, grade) => grade
    | none => .f

/-- A grade and the points out of a hundred. -/
structure Score where
  grade : Grade
  points : Nat
  deriving Repr, DecidableEq

/-- The score of a list of findings. -/
def Score.ofFindings (findings : List Finding) : Score :=
  let summary := Summary.ofFindings findings
  let points := (100 - summary.penalty).toNat
  { grade := Grade.ofPoints points (0 < summary.critical), points := points }

end WorkspaceAudit
