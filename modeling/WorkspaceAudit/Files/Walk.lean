import WorkspaceAudit.Files.Disk
import WorkspaceAudit.Text.Order

/-!
# Collecting files

The files below a folder that a scanner reads. Links are never followed, folders of dependencies
and build output are left out by name, and what the ignore rules cover is left out with all that
lies below it. The entries of each folder are visited in the order of their names.

The walk goes into a folder by calling itself and has no bound of its own on how deep it goes: only
the length of a path ends it. How many calls of itself the machine has room for is not part of this
description.
-/

namespace WorkspaceAudit

/-- The names of folders that are always left out. -/
def skippedFolders : List String :=
  ["node_modules", "vendor", "dist", ".git", ".ai", "coverage", "__pycache__", ".venv", "venv"]

/-- The names of generated files, which hold nothing that was written by hand. -/
def generatedFiles : List String :=
  [".aiignore", "package-lock.json", "yarn.lock", "pnpm-lock.yaml"]

/-- Which files are collected. -/
structure Selection where
  /-- Extensions in small letters, with their dot. -/
  extensions : List String
  /-- Environment files are collected whatever their extension. -/
  includesEnvFiles : Bool := false
  /-- The paths below the folder that are left out. -/
  ignored : String → Bool := fun _ => false
  /-- More names that are left out. -/
  skipped : List String := []
  /-- A last test of the names of a file below the folder. -/
  accepts : List String → Bool := fun _ => true
  /-- The folders that cannot be listed, by their names below the folder. -/
  closed : List String → Bool := fun _ => false

namespace Selection

/-- The name is one of a file that a scanner reads. -/
def isCandidate (sel : Selection) (name : String) : Bool :=
  !generatedFiles.contains name &&
    (sel.extensions.contains (Text.lower (Path.suffixOf name)) ||
      (sel.includesEnvFiles && ".env".toList.isPrefixOf name.toList))

/-- The name is left out. -/
def prunes (sel : Selection) (name : String) : Bool :=
  skippedFolders.contains name || sel.skipped.contains name

/-- The file of these names is collected. -/
def takes (sel : Selection) (names : List String) : Bool :=
  sel.isCandidate (names.getLastD "") && sel.accepts names

/-- Names below the folder as a path. -/
def pathText (names : List String) : String := Text.join "/" names

mutual

/-- The files that a node gives, as names below the folder; `above` holds its own names. Folders are
entered to any depth. -/
def collectNode (sel : Selection) (above : List String) : Node → List (List String)
  | .file _ => if sel.takes above then [above] else []
  | .link _ => []
  | .folder entries =>
    if sel.closed above then []
    else (sortByName Prod.fst (sel.collectEntries above entries)).flatMap Prod.snd

/-- The files that each entry of a folder gives, with the name of the entry. -/
def collectEntries (sel : Selection) (above : List String) :
    List (String × Node) → List (String × List (List String))
  | [] => []
  | (name, node) :: more =>
    let names := above ++ [name]
    let files :=
      if sel.prunes name || sel.ignored (pathText names) then []
      else sel.collectNode names node
    (name, files) :: sel.collectEntries above more

end

mutual

/-- The entries below a node of which the system is asked what they are, as names below the folder;
`above` holds the names of the node. -/
def askedNode (sel : Selection) (above : List String) : Node → List (List String)
  | .folder entries => if sel.closed above then [] else sel.askedEntries above entries
  | _ => []

/-- The same for the entries of a folder. An entry is asked about before its path is compared with
those that are left out. -/
def askedEntries (sel : Selection) (above : List String) :
    List (String × Node) → List (List String)
  | [] => []
  | (name, node) :: more =>
    let names := above ++ [name]
    let asked :=
      if sel.prunes name then []
      else if sel.ignored (pathText names) then [names]
      else names :: sel.askedNode names node
    asked ++ sel.askedEntries above more

end

/-- The files below the node of a folder. Anything but a folder gives none. -/
def collectBelow (sel : Selection) : Node → List (List String)
  | .folder entries => sel.collectNode [] (.folder entries)
  | _ => []

end Selection

/-- The files below the folder at a path, as names below it, and the path without links. An entry
whose path is too long to ask about is a fault of the whole walk. -/
def Disk.collect (d : Disk) (sel : Selection) (root : Path) :
    Except Fault (Path × List (List String)) := do
  let root ← d.resolve root
  let sel := { sel with closed := fun names => d.isClosed (root.extend names) }
  match d.locate root .target with
  | .ok (.found _ node) =>
    if (sel.askedNode [] node).any fun names => isTooLong (root.extend names) then
      throw .nameTooLong
    else return (root, sel.collectBelow node)
  | _ => return (root, [])

end WorkspaceAudit
