import WorkspaceAudit.Json.Foreign
import WorkspaceAudit.Text.Order
import WorkspaceAudit.Workspace.Config

/-!
# Finding projects

The projects of a workspace are the folders directly in it that have a manifest or the package file
of some language.
-/

namespace WorkspaceAudit

structure Project where
  name : String
  path : String
  phase : Option String := none
  quickContext : Option String := none
  hasManifest : Bool := false
  deriving Repr, DecidableEq

namespace Project

/-- The names on the way from a project to its manifest. -/
def manifestNames : List String := [".ai", "handoff", "MANIFEST.json"]

/-- The files that mark a folder as a project. -/
def markers : List String :=
  ["package.json", "go.mod", "requirements.txt", "pyproject.toml", "Cargo.toml"]

/-- The members of a manifest; none if it cannot be read or is no object. -/
def readManifest (d : Disk) (path : Path) : Except Fault (Option Json.Members) :=
  match d.readText path with
  | .ok text => do
    match ← Json.ofForeign? text with
    | some (.object members) => return some members
    | _ => return none
  | .error fault => if fault.ofSystem then .ok none else .error fault

/-- A text of a manifest, which may be missing or null. -/
def manifestText (v : Option (Json LooseText)) (name : String) : Checked (Option String) :=
  (Check.nullable Check.text (v.getD .null).plain).under (.field name)

/-- The phase of the last session of a manifest. -/
def lastPhase (manifest : Json.Members) : Except Fault (Option (Json LooseText)) :=
  match (manifest.get? "last_session").filter Json.isTruthy with
  | none => .ok none
  | some (.object session) => .ok (Json.Members.get? session "phase")
  | some _ => .error .noMembers

/-- The project in a folder that has a manifest. -/
def ofManifest (path : Path) (manifest : Json.Members) : Except Fault Project := do
  let phase ← lastPhase manifest
  match (manifestText phase "phase").and
      (manifestText (manifest.get? "quick_context") "quick_context") with
  | .ok (phase, quickContext) =>
    return { name := path.name, path := path.text, phase := phase, quickContext := quickContext,
             hasManifest := true }
  | .error problems => throw (.invalid problems)

/-- A project of which only the folder is known. -/
def plain (path : Path) : Project where
  name := path.name
  path := path.text

/-- The project in a folder, if there is one. -/
def describe (d : Disk) (path : Path) : Except Fault (Option Project) := do
  let manifest := path.extend manifestNames
  if ← d.exists? manifest then
    match ← readManifest d manifest with
    | some members => (ofManifest path members).map some
    | none => return some (plain path)
  else if ← markers.anyM fun marker => d.exists? (path.extend [marker]) then
    return some (plain path)
  else return none

/-- The name is one of a folder that is looked into. -/
def isVisible (excluded : List String) (name : String) : Bool :=
  name.toList.head? != some '.' && !excluded.contains name

/-- The project of an entry of a workspace, if it is one. -/
def ofEntry (d : Disk) (workspace : Path) (excluded : List String) (name : String) :
    Except Fault (Option Project) := do
  let path := workspace.extend [name]
  if (← d.isFolder? path) && isVisible excluded name then describe d path else return none

/-- The projects in order of their names in small letters. -/
def sortProjects (projects : List Project) : List Project :=
  sortByName (fun p => Text.lower p.name) projects

/-- The projects of a workspace. A workspace that is missing or cannot be listed has none. -/
def discover (d : Disk) (workspace : Path) (excluded : List String) :
    Except Fault (List Project) := do
  if ← d.isFolder? workspace then
    match d.list workspace with
    | .ok entries =>
      let found ← entries.mapM fun entry => ofEntry d workspace excluded entry.1
      return sortProjects (found.filterMap id)
    | .error _ => return []
  else return []

/-- The project of a name or path, or the folder at a path. -/
def find? (m : Machine) (config : Config) (target : String) :
    Except Fault (Option Project) := do
  let projects ← discover m.disk (← config.workspace m) config.excluded
  match projects.find? fun p => target == p.name || target == p.path with
  | some p => return some p
  | none =>
    let path ← m.expandHome (.ofString target)
    if ← m.disk.isFolder? path then
      let path ← m.disk.resolve path
      return some (plain path)
    else return none

end Project

end WorkspaceAudit
