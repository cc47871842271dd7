import WorkspaceAudit.Command.Run
import WorkspaceAudit.Display.Plain

/-!
# The program

Reads the part of the disk that a command line is about, runs the command on it, prints what it
left behind and writes the files that it changed. The tool that audits dependencies is not run, and
the terminal shows all items.

A run of a command is a value and takes no time that could be measured from within it. So the
stopwatch shows how long the disk was read, which is what a scan waits for.
-/

namespace WorkspaceAudit.Program

/-- Files whose text some command reads. The text of other files changes nothing. -/
def isRead (name : String) : Bool :=
  (IgnoreRules.fileNames ++ ["package.json", "MANIFEST.json"]).contains name ||
    (RuleSet.secrets.selection []).isCandidate name ||
    (RuleSet.insecure.selection []).isCandidate name ||
    routeSelection.isCandidate name

/-- Folders that are never looked into. -/
def isSkipped (name : String) : Bool :=
  skippedFolders.contains name && name != ".ai"

/-- The tree at a path of the system. A file is read if some command needs its text, or if
`asked` is set. The paths that cannot be opened are put into `closed`. Of a link, the system tells
where it leads in the end and not what is written in it. -/
partial def readNode (closed : IO.Ref (List String)) (path name : String) (asked : Bool) :
    IO Node := do
  let place := (← IO.currentDir) / path
  match (← place.symlinkMetadata).type with
  | .symlink =>
    try return .link (← IO.FS.realPath place).toString
    catch _ => return .link "/dev/null/missing"
  | .dir =>
    if isSkipped name then return .emptyFolder
    try
      let mut entries := #[]
      for entry in ← place.readDir do
        let node ← readNode closed (path ++ "/" ++ entry.fileName) entry.fileName false
        entries := entries.push (entry.fileName, node)
      return .folder entries.toList
    catch _ =>
      closed.modify (path :: ·)
      return .emptyFolder
  | _ =>
    if asked || isRead name then
      try return .file (← IO.FS.readBinFile place).toList
      catch _ =>
        closed.modify (path :: ·)
        return .file []
    else return .file []

/-- The disk with what is at a path of the system, if anything is there. -/
def addTree (d : Disk) (p : Path) : IO Disk := do
  try
    let p := d.workingFolder.join p
    let place := Path.ofString (← IO.FS.realPath p.text).toString
    let closed ← IO.mkRef []
    let node ← readNode closed place.text place.name true
    let d := { d with top := d.top.put place.names node, closed := (← closed.get) ++ d.closed }
    if place == p then return d
    else return { d with top := d.top.put p.names (.link place.text) }
  catch _ => return d

/-- The disk with what is at the path of a file or folder that may be unknown. -/
def addPath (d : Disk) (p : Except Fault Path) : IO Disk :=
  match p with
  | .ok p => addTree d p
  | .error _ => return d

/-- The variables of the environment that are looked at. -/
def readEnvironment : IO (List (String × String)) := do
  let mut found := #[]
  for name in ["HOME", "SECUREDEV_CONFIG", "SECUREDEV_HOME"] do
    if let some value ← IO.getEnv name then found := found.push (name, value)
  return found.toList

/-- The time of day: that of the start of this process. -/
def now : IO Int := do
  let time := (← ((← IO.currentDir) / "/proc/self").metadata).modified
  return time.sec * 1000000 + time.nsec.toNat / 1000

/-- The machine with all that a command line can reach. -/
def machine (args : List String) : IO Machine := do
  let here := (Path.ofString (← IO.currentDir).toString).names
  let disk ← addTree ⟨.emptyFolder, here, []⟩ ⟨.root, here⟩
  let m : Machine :=
    { disk := disk, environment := ← readEnvironment, clock := ⟨← now, true⟩, readings := [] }
  let disk ← addPath disk m.configPath
  let disk ← addPath disk m.reportsFolder
  let m := { m with disk := disk }
  let workspace := (Config.load m).bind fun config => config.workspace m
  let mut disk ← addPath disk workspace
  for arg in args do
    disk ← addPath disk (m.expandHome (.ofString arg))
  return { m with disk := disk }

/-- Writes the files and folders of a tree that differ from those of an earlier one. -/
partial def writeChanges (names : List String) (old : Option Node) : Node → IO Unit
  | .file bytes => do
    let same := match old with
      | some (.file before) => before == bytes
      | _ => false
    unless same do
      IO.FS.writeBinFile (Path.text ⟨.root, names⟩) ⟨bytes.toArray⟩
  | .folder entries => do
    if old.isNone then IO.FS.createDirAll (Path.text ⟨.root, names⟩)
    for (name, node) in entries do
      writeChanges (names ++ [name]) (old.bind (·.child? name)) node
  | .link _ => return

/-- Runs a command line and gives the code with which the program ends. -/
def runProgram (args : List String) : IO UInt32 := do
  let start ← IO.monoNanosNow
  let m ← machine args
  let stop ← IO.monoNanosNow
  let elapsed := Reading.binary (.ofRatio false (stop - start) 1000000000)
  let m := { m with readings := [.zero, elapsed] }
  let (outcome, done) := run standardScan args m
  writeChanges [] (some m.disk.top) done.disk.top
  match outcome with
  | .misuse => IO.eprintln "usage: securedev (scan | list | report | guard | config) ..."
  | .ended _ output errors printed fault =>
    for item in printed do
      for line in Display.linesOf item do IO.println line
    IO.print output
    IO.eprint errors
    if let some fault := fault then IO.eprintln fault.message
  return outcome.code.toUInt32

end WorkspaceAudit.Program

def main (args : List String) : IO UInt32 :=
  WorkspaceAudit.Program.runProgram args
