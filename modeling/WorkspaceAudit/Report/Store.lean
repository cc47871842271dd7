import WorkspaceAudit.Report.Codec
import WorkspaceAudit.Report.Markdown
import WorkspaceAudit.Text.Digit
import WorkspaceAudit.Text.Order
import WorkspaceAudit.Workspace.Machine

/-!
# Stored reports

Each report is stored in a file named for its project and the day of the scan. A later scan on the
same day takes the place of the earlier one.
-/

namespace WorkspaceAudit

/-- The folder of the stored reports. -/
def Machine.reportsFolder (m : Machine) : Except Fault Path := do
  let base ← match m.setting? "SECUREDEV_HOME" with
    | some text => m.expandHome (.ofString text)
    | none => m.home.map fun home => home.below ".securedev"
  return base.below "reports"

namespace Report

/-- The name of the file of a report. -/
def fileName (r : Report) : String :=
  r.project ++ "-" ++ r.scannedAt.date.text ++ ".json"

/-- So many digits at the start of a text, of any script, and what follows them. -/
def dropDigits? : Nat → List Char → Option (List Char)
  | 0, s => some s
  | n + 1, c :: s => if Text.isDigit c then dropDigits? n s else none
  | _ + 1, [] => none

/-- What follows a character at the start of a text. -/
def dropChar? (c : Char) : List Char → Option (List Char)
  | d :: s => if c == d then some s else none
  | [] => none

/-- The text is the day and the ending of the name of a report. -/
def isDayEnding (s : List Char) : Bool :=
  let rest := do
    let s ← dropChar? '-' s
    let s ← dropDigits? 4 s
    let s ← dropChar? '-' s
    let s ← dropDigits? 2 s
    let s ← dropChar? '-' s
    dropDigits? 2 s
  rest == some ".json".toList

/-- The name is one of a report of the project. -/
def isFileNameOf (project name : String) : Bool :=
  project.toList.isPrefixOf name.toList && isDayEnding (name.toList.drop project.length)

/-- The greatest name of a report of the project among names. -/
def latestName? (project : String) (names : List String) : Option String :=
  (sortByName id (names.filter (isFileNameOf project))).getLast?

/-- The text of a report for its file. There are no bytes for halves of pairs that stand alone. -/
def encoded (r : Report) : Except Fault String :=
  match r.findings.findSome? Finding.lone with
  | some lone => .error (.unencodable lone)
  | none => .ok r.render

/-- Stores a report; gives the path of its file. -/
def save (r : Report) : Action Path := do
  let folder ← Action.inspect Machine.reportsFolder
  Action.makeFolders folder
  let path := folder.below r.fileName
  Action.change fun d => do d.writeText path (← r.encoded)
  return path

/-- The report in a file; none if the file cannot be read or holds no report. -/
def load? (d : Disk) (path : Path) : Except Fault (Option Report) :=
  match d.readText path with
  | .ok text => .ok (ofText text).toOption
  | .error fault => if fault.ofSystem then .ok none else .error fault

/-- The latest stored report of a project. -/
def latest? (m : Machine) (project : String) : Except Fault (Option Report) := do
  let folder ← m.reportsFolder
  if ← m.disk.isFolder? folder then
    let entries ← m.disk.list folder
    match latestName? project (entries.map Prod.fst) with
    | some name => load? m.disk (folder.extend [name])
    | none => return none
  else return none

/-- Writes the security page of a report into a folder; gives the path of its file. A page that
cannot be made leaves the file as it is. -/
def savePage (r : Report) (folder : Path) : Action Path := do
  let path := folder.below "SECURITY.md"
  Action.change fun d => do d.writeText path (← r.markdown)
  return path

end Report

end WorkspaceAudit
