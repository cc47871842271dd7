import WorkspaceAudit.Files.Walk
import WorkspaceAudit.Ignore.Rules
import WorkspaceAudit.Scan.Content
import WorkspaceAudit.Scan.Routes

/-!
# Scanning the files of a project

- `RuleSet.scanFiles` applies a rule set to files, `RuleSet.scanProject` to the files that it
  collects in a project;
- `scanRoutes` looks for routes without authentication in a project.
-/

namespace WorkspaceAudit

/-- The ignore rules of a project. A file that cannot be read has none. -/
def Disk.ignoreRules (d : Disk) (root : Path) : IgnoreRules :=
  IgnoreRules.fileNames.flatMap fun name =>
    match d.readSource (root.below name) with
    | .ok text => IgnoreRules.ofText (Text.plainNewlines text)
    | .error _ => []

/-- The path below a folder, as text. -/
def Path.relativeText (p root : Path) : Except Fault String :=
  match p.relativeTo? root with
  | some below => .ok below.text
  | none => .error (.outside p root)

namespace RuleSet

/-- The findings in the file at a path; a file that the system does not give has none. `root` is
the project without links. -/
def scanFile (set : RuleSet) (d : Disk) (root file : Path) : Except Fault (List Finding) :=
  match d.readSource file with
  | .ok content => do
    let file ← d.resolve file
    let path ← file.relativeText root
    return set.scanContent path content
  | .error fault => if fault.ofSystem then .ok [] else .error fault

/-- The findings in files, in the order of the files. -/
def scanFiles (set : RuleSet) (d : Disk) (root : Path) (files : List Path) :
    Except Fault (List Finding) := do
  let root ← d.resolve root
  let found ← files.mapM (set.scanFile d root)
  return found.flatten

/-- The files that a rule set reads. -/
def selection (set : RuleSet) (rules : IgnoreRules) : Selection where
  extensions := set.extensions
  includesEnvFiles := set.includesEnvFiles
  ignored := rules.ignores

/-- The findings in a project. -/
def scanProject (set : RuleSet) (d : Disk) (project : Path) : Except Fault (List Finding) := do
  let root ← d.resolve project
  let (root, files) ← d.collect (set.selection (d.ignoreRules root)) root
  set.scanFiles d root (files.map root.extend)

end RuleSet

/-- The name is none of a test of routes. -/
def isRouteSource (name : String) : Bool :=
  !(".test.ts".toList.isSuffixOf name.toList || ".spec.ts".toList.isSuffixOf name.toList)

/-- The files in which routes are declared. -/
def routeSelection : Selection where
  extensions := [".ts", ".js"]
  skipped := ["test", "tests", "__tests__", "spec"]
  accepts names := isRouteSource (names.getLastD "")

/-- The finding of a server without any authentication. -/
def noAuthentication : Finding where
  scanner := .auth
  severity := .high
  title := "No authentication middleware detected"
  description := "This project appears to be an HTTP API/server but has no authentication " ++
    "middleware configured."
  remediation := some ("Implement authentication (JWT, sessions, OAuth) before exposing " ++
    "endpoints. Use middleware like passport.js, @nestjs/jwt, or express-jwt.")

/-- The findings in the sources of a project. If none of them mentions authentication, only a
server framework is reported. -/
def routeFindings (sources : List (String × List Char)) : List Finding :=
  if sources.any fun source => mentionsAuthentication source.2 then
    sources.flatMap fun (path, content) => unprotectedRoutes path content
  else if sources.any fun source => Mark.serverFramework.found source.2 then [noAuthentication]
  else []

/-- The readable files of a project that declare routes, with their text. -/
def Disk.routeSources (d : Disk) (project : Path) :
    Except Fault (List (String × List Char)) := do
  let (root, files) ← d.collect routeSelection project
  return files.filterMap fun names =>
    match d.readSource (root.extend names) with
    | .ok content => some (Selection.pathText names, content)
    | .error _ => none

/-- The findings on the routes of a project. -/
def scanRoutes (d : Disk) (project : Path) : Except Fault (List Finding) :=
  (d.routeSources project).map routeFindings

end WorkspaceAudit
