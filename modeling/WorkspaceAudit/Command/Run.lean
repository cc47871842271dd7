import WorkspaceAudit.Command.Arguments
import WorkspaceAudit.Display.Pages
import WorkspaceAudit.Report.Store
import WorkspaceAudit.Scan.Project
import WorkspaceAudit.Workspace.Discovery

/-!
# Running commands

A command works on a machine and leaves text and printed items behind, also those from before a
fault. How a project is scanned is a parameter.
-/

namespace WorkspaceAudit

/-- What a command has worked on and left behind. -/
structure Session where
  machine : Machine
  output : String := ""
  errors : String := ""
  printed : List Printed := []

/-- Why a command ends before its last step. -/
inductive Halt where
  | exit (code : Nat)
  /-- The command line cannot be used. -/
  | misuse
  | fault (fault : Fault)
  deriving Repr, DecidableEq

abbrev Command (α : Type) := ExceptT Halt (StateM Session) α

/-- How a project is scanned. -/
abbrev Scan := Path → Action Report

namespace Command

/-- Prints a line. -/
def say (line : String) : Command Unit :=
  modify fun s => { s with output := s.output ++ outputLine line }

/-- Prints a line of errors. -/
def complain (line : String) : Command Unit :=
  modify fun s => { s with errors := s.errors ++ outputLine line }

/-- Shows a page on the terminal. What ends the page early ends the command. -/
def print (page : Page) : Command Unit := do
  let s ← get
  let screen := s.machine.terminal.display page
  set { s with printed := s.printed ++ screen.items }
  match screen.fault with
  | none => return
  | some fault => throw (.fault fault)

/-- Does something on the machine and gives its outcome, which may be a fault. -/
def attempt {α : Type} (action : Action α) : Command (Except Fault α) := do
  let s ← get
  let (outcome, machine) := action.run s.machine
  set { s with machine := machine }
  return outcome

/-- Does something on the machine; a fault ends the command. -/
def perform {α : Type} (action : Action α) : Command α := do
  match ← attempt action with
  | .ok a => return a
  | .error fault => throw (.fault fault)

/-- What has been made; a fault ends the command. -/
def need {α : Type} : Except Fault α → Command α
  | .ok a => return a
  | .error fault => throw (.fault fault)

/-- Looks at the machine; a fault ends the command. -/
def look {α : Type} (f : Machine → Except Fault α) : Command α :=
  perform (Action.inspect f)

/-- The level of an option; a text that is no level is misuse. -/
def level? (value : Option String) : Command (Option BlockLevel) :=
  match value with
  | none => return none
  | some text =>
    match BlockLevel.ofText text with
    | .ok level => return some level
    | .error _ => throw .misuse

/-- The projects of the workspace. -/
def discover (config : Config) : Command (List Project) :=
  look fun m => do Project.discover m.disk (← config.workspace m) config.excluded

/-- The projects that a scan is about. -/
def scanTargets (config : Config) (project : Option String) (all : Bool) :
    Command (List Project) := do
  if all then discover config
  else
    match project.filter (· != "") with
    | none => return []
    | some target =>
      match ← look fun m => Project.find? m config target with
      | some p => return [p]
      | none =>
        complain ("Project not found: " ++ target)
        throw (.exit 1)

/-- Shows a report, unless all of them are to be printed as JSON in the end. -/
def showScan (json : Bool) (report : Report) : Command Unit :=
  if json then return else print (Display.scanPage report)

/-- Scans one project and stores the report; none if the scan fails. -/
def scanOne (scan : Scan) (updatePage json : Bool) (p : Project) : Command (Option Report) := do
  match ← attempt (scan (.ofString p.path)) with
  | .error fault =>
    complain (p.name ++ " - scan failed: " ++ fault.message)
    return none
  | .ok report =>
    let _ ← perform report.save
    if updatePage then
      let _ ← perform (report.savePage (.ofString p.path))
    showScan json report
    return some report

/-- Scans one project after the other. -/
def scanEach (scan : Scan) (updatePage json : Bool) : List Project → Command (List Report)
  | [] => return []
  | p :: more => do
    let first ← scanOne scan updatePage json p
    let others ← scanEach scan updatePage json more
    return first.toList ++ others

/-- The whole numbers of a report. -/
def reportNumbers (r : Report) : List Int :=
  (r.durationMs : Int) :: (Severity.all.map r.summary.count ++ Finding.lineNumbers r.findings)

/-- The reports as a list of JSON. -/
def reportsText (reports : List Report) : Except Fault String :=
  withNumbers (reports.flatMap reportNumbers)
    ((Json.array (reports.map Report.toJson)).render .escaped)

/-- Prints all reports as JSON, or shows their summary. -/
def showScans (json : Bool) (reports : List Report) : Command Unit := do
  if json then say (← need (reportsText reports))
  else print (Display.summaryPage reports)

/-- Scans a project, or all of them. -/
def scanProjects (scan : Scan) (project : Option String) (all updatePage json : Bool) :
    Command Unit := do
  let config ← look Config.load
  let targets ← scanTargets config project all
  if targets.isEmpty then
    complain "No projects to scan. Use --all or specify a project name."
    throw (.exit 1)
  let reports ← scanEach scan updatePage json targets
  showScans json reports

/-- Lists the projects with their last score. -/
def listProjects : Command Unit := do
  let config ← look Config.load
  let projects ← discover config
  if projects.isEmpty then say "No projects found."
  else
    print (.of (Display.overviewHeader projects.length))
    let rows ← projects.mapM fun p => do
      let report ← look fun m => Report.latest? m p.name
      look fun m => Display.overviewRow m.now p.name report
    print (.of (Display.overviewTable rows))

/-- Shows the last report of a project. -/
def showReport (project : String) (json : Bool) : Command Unit := do
  match ← look fun m => Report.latest? m project with
  | none =>
    say ("No scan report found for " ++ project ++ ". Run: securedev scan " ++ project)
  | some report =>
    if json then say report.render else print (Display.reportPage report)

/-- How many blocking findings are listed. -/
def listedFindings : Nat := 5

/-- A blocking finding. -/
def blockingLine (f : Finding) : String :=
  let file := match f.location.path?.filter (· != "") with
    | some path => " (" ++ path ++ ")"
    | none => ""
  "  [" ++ f.severity.name ++ "] " ++ f.title ++ file

/-- The lines about the findings that block. -/
def blockedLines (level : BlockLevel) (blocking : List Finding) : List String :=
  ("securedev: BLOCKED - " ++ Text.Decimal.ofNat blocking.length ++ " " ++ level.name ++
    "+ finding(s):") :: (blocking.take listedFindings).map blockingLine

/-- Checks a project before or after a run. Only findings that block make it fail. -/
def guard (scan : Scan) (project : String) (before : Bool) (blockOn : Option String) :
    Command Unit := do
  let config ← look Config.load
  let level := (← level? blockOn).getD config.blockOn
  match ← look fun m => Project.find? m config project with
  | none =>
    complain ("securedev guard: project not found: " ++ project)
    throw (.exit 0)
  | some p =>
    say ("securedev: " ++ (if before then "pre" else "post") ++ "-run security check for " ++
      project)
    match ← attempt (scan (.ofString p.path)) with
    | .error fault =>
      complain ("securedev: scan error: " ++ fault.message)
      throw (.exit 0)
    | .ok report =>
      let _ ← perform report.save
      let blocking := report.blocking level.severity
      if blocking.isEmpty then
        say ("securedev: OK - Score " ++ report.grade.name ++ " (" ++
          Text.Decimal.ofNat report.points ++ "/100), no blocking issues")
      else
        (blockedLines level blocking).forM complain
        throw (.exit 1)

/-- Shows or changes the settings. -/
def configure (workspace blockOn : Option String) («show» : Bool) : Command Unit := do
  let config ← look Config.load
  if «show» then say config.render
  else
    let level ← level? blockOn
    let changed : Config :=
      { config with
        workspaceRoot := workspace.orElse fun _ => config.workspaceRoot
        blockOn := level.getD config.blockOn }
    let path ← perform changed.save
    say ("Config saved to " ++ path.text)

end Command

/-- The command of an invocation. -/
def Invocation.command (scan : Scan) : Invocation → Command Unit
  | .scan project all updatePage json => Command.scanProjects scan project all updatePage json
  | .list => Command.listProjects
  | .report project json => Command.showReport project json
  | .guard project before blockOn => Command.guard scan project before blockOn
  | .config workspace blockOn «show» => Command.configure workspace blockOn «show»

/-- How a run of the program ends. -/
inductive Outcome where
  | misuse
  | ended (code : Nat) (output errors : String) (printed : List Printed) (fault : Option Fault)
  deriving Repr, DecidableEq

/-- The code with which the program ends. -/
def Outcome.code : Outcome → Nat
  | .misuse => 2
  | .ended code .. => code

/-- Runs a command line on a machine. -/
def run (scan : Scan) (args : List String) (m : Machine) : Outcome × Machine :=
  match Invocation.ofArguments? args with
  | none => (.misuse, m)
  | some invocation =>
    let (outcome, s) := (invocation.command scan).run { machine := m }
    let ended (code : Nat) (fault : Option Fault) : Outcome :=
      .ended code s.output s.errors s.printed fault
    match outcome with
    | .ok _ => (ended 0 none, s.machine)
    | .error (.exit code) => (ended code none, s.machine)
    | .error .misuse => (.misuse, s.machine)
    | .error (.fault fault) => (ended 1 (some fault), s.machine)

/-- Scans a project with the scanners that run unless others are chosen. -/
def standardScan : Scan := scanProject ProjectScanner.standard

end WorkspaceAudit
