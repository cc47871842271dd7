import WorkspaceAudit.Report.Codec
import WorkspaceAudit.Workspace.Machine

/-!
# Settings

What is kept between runs: the workspace, the level that blocks, and the projects to leave out.
-/

namespace WorkspaceAudit

/-- The levels that a run can be blocked on. -/
inductive BlockLevel where
  | critical
  | high
  deriving Repr, DecidableEq

namespace BlockLevel

def severity : BlockLevel → Severity
  | .critical => .critical
  | .high => .high

def name (l : BlockLevel) : String := l.severity.name

def ofName? (s : String) : Option BlockLevel :=
  [critical, high].find? (·.name == s)

/-- The level of a text in small or capital letters. -/
def ofText (value : String) : Except Fault BlockLevel :=
  match ofName? (String.ofList (value.toList.map Text.capitalLatin)) with
  | some level => .ok level
  | none => .error (.badLevel value)

end BlockLevel

structure Config where
  /-- The folder that holds the projects. -/
  workspaceRoot : Option String := none
  /-- The least severe level that blocks. -/
  blockOn : BlockLevel := .critical
  /-- The names of projects to leave out. -/
  excluded : List String := []
  deriving Repr, DecidableEq

/-- The file of the settings. -/
def Machine.configPath (m : Machine) : Except Fault Path :=
  match m.setting? "SECUREDEV_CONFIG" with
  | some text => m.expandHome (.ofString text)
  | none => m.home.map fun home => home.below ".securedev.json"

namespace Config

def toJson (c : Config) : Json :=
  .object
    [("workspace_root", .ofOption .string c.workspaceRoot),
     ("block_on_severity", .string c.blockOn.name),
     ("exclude_projects", .array (c.excluded.map .string))]

def check : Json → Checked Config :=
  Check.object fun m =>
    ((Check.optional Check.text m "workspace_root").and
      ((Check.withDefault .critical (Check.named BlockLevel.ofName? .notLevel) m
          "block_on_severity").and
        (Check.withDefault [] (Check.list Check.text) m "exclude_projects"))).map
      fun (workspaceRoot, blockOn, excluded) =>
        { workspaceRoot := workspaceRoot, blockOn := blockOn, excluded := excluded }

/-- The text of stored settings. -/
def render (c : Config) : String :=
  c.toJson.render .escaped

/-- The stored settings; the default ones if there are none or they cannot be used. -/
def load (m : Machine) : Except Fault Config := do
  let path ← m.configPath
  if ← m.disk.exists? path then
    match m.disk.readText path with
    | .ok text => return ((Checked.ofText check text).toOption).getD {}
    | .error fault => if fault.ofSystem then return {} else throw fault
  else return {}

/-- Stores settings; gives the path of their file. -/
def save (c : Config) : Action Path := do
  let path ← Action.inspect Machine.configPath
  Action.makeFolders path.parent
  Action.change (·.writeText path c.render)
  return path

/-- The folder that holds the projects: the working folder if none is set. -/
def workspace (c : Config) (m : Machine) : Except Fault Path :=
  match c.workspaceRoot.filter (· != "") with
  | some text => m.expandHome (.ofString text)
  | none => .ok m.disk.workingFolder

end Config

end WorkspaceAudit
