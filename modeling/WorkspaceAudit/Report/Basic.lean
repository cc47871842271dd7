import WorkspaceAudit.Report.Score
import WorkspaceAudit.Time.Moment

/-!
# Reports
-/

namespace WorkspaceAudit

/-- The outcome of one scan of a project. -/
structure Report where
  project : String
  projectPath : String
  scannedAt : Moment
  grade : Grade
  points : Nat
  findings : List Finding := []
  summary : Summary := {}
  durationMs : Nat := 0
  deriving DecidableEq

namespace Report

/-- The findings that are at least as severe as a level. -/
def blocking (r : Report) (level : Severity) : List Finding :=
  r.findings.filter fun f => f.severity.rank ≤ level.rank

/-- The findings of a severity. -/
def ofSeverity (r : Report) (severity : Severity) : List Finding :=
  r.findings.filter (·.severity == severity)

end Report

end WorkspaceAudit
