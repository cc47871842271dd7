import WorkspaceAudit.Report.Basic
import WorkspaceAudit.Scan.Dependencies
import WorkspaceAudit.Scan.Files
import WorkspaceAudit.Scan.Turns

/-!
# Scanning a project

All scanners run on a project side by side, and their findings are put together in the order of the
scanners. A scanner that fails has no findings.
-/

namespace WorkspaceAudit

/-- A scanner that runs on a project. -/
structure ProjectScanner where
  name : String
  /-- How often it lets other scanners go first. -/
  turns : Nat := 0
  run : Machine → Path → Except Fault (List Finding)

namespace ProjectScanner

def secrets : ProjectScanner where
  name := "secrets"
  run m project := RuleSet.secrets.scanProject m.disk project

def dependencies : ProjectScanner where
  name := "deps"
  run m project := scanDependencies m project

def insecure : ProjectScanner where
  name := "patterns"
  run m project := RuleSet.insecure.scanProject m.disk project

def routes : ProjectScanner where
  name := "auth"
  run m project := scanRoutes m.disk project

/-- The scanners that run unless others are chosen. -/
def standard : List ProjectScanner := [secrets, dependencies, insecure, routes]

/-- The scanners of a scan: those that are chosen or else the standard ones, and after them the
extra ones. -/
def selected (chosen : Option (List ProjectScanner)) (extra : List ProjectScanner) :
    List ProjectScanner :=
  chosen.getD standard ++ extra

end ProjectScanner

/-- The findings of an outcome; a failure has none. -/
def findingsOf : Except Fault (List Finding) → List Finding
  | .ok findings => findings
  | .error _ => []

/-- The findings of scanners, in the order of the scanners. -/
def gather (scanners : List ProjectScanner) (m : Machine) (project : Path) : List Finding :=
  let jobs := scanners.map fun scanner => Slot.waiting scanner.turns (scanner.run m project)
  (Slot.runAll jobs).flatMap findingsOf

namespace Report

/-- The report on findings in a project. Its duration is not below zero. -/
def ofFindings (root : Path) (scannedAt : Moment) (findings : List Finding) (durationMs : Int) :
    Except Fault Report :=
  let score := Score.ofFindings findings
  if durationMs < 0 then .error (.backwards durationMs)
  else
    .ok {
      project := root.name
      projectPath := root.text
      scannedAt := scannedAt
      grade := score.grade
      points := score.points
      findings := findings
      summary := Summary.ofFindings findings
      durationMs := durationMs.toNat }

end Report

/-- The whole milliseconds between two readings of a stopwatch. -/
def elapsedMs (start stop : Reading) : Except Fault Int :=
  match Reading.elapsedMs start stop with
  | .ok n => .ok n
  | .error cause => .error (.unmeasurable cause)

/-- Scans a project with the given scanners. -/
def scanProject (scanners : List ProjectScanner) (project : Path) : Action Report := do
  let start ← Action.readStopwatch
  let root ← Action.inspect fun m => m.disk.resolve project
  let m ← get
  let findings := gather scanners m root
  let now ← Action.inspect Machine.now
  let stop ← Action.readStopwatch
  Action.inspect fun _ => do
    Report.ofFindings root now findings (← elapsedMs start stop)

end WorkspaceAudit
