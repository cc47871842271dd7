import WorkspaceAudit.Files.Resolve
import WorkspaceAudit.Text.Lines
import WorkspaceAudit.Text.Utf8

/-!
# Disks

A disk is a tree of files with a working folder, from which paths without an anchor start, and with
paths that are closed: by the very text of such a path no file can be opened and no folder listed.
Another path to the same place is not closed, and neither is what lies in a folder of that path.

Reading leaves a disk as it is; writing gives a new disk or a fault.
-/

namespace WorkspaceAudit

structure Disk where
  top : Node
  /-- The names of the working folder, in which there is no link. -/
  here : List String
  /-- The texts of the paths that are closed. -/
  closed : List String := []

namespace Disk

/-- The working folder as a path. -/
def workingFolder (d : Disk) : Path := ⟨.root, d.here⟩

/-- Some name of the path has a NUL character. -/
def hasNul (p : Path) : Bool :=
  p.names.any fun name => name.toList.contains '\x00'

/-- The length in bytes that the text of a path has to stay below. -/
def pathLimit : Nat := 4096

/-- The text of the path is longer than the system takes. -/
def isTooLong (p : Path) : Bool :=
  decide (pathLimit ≤ p.text.utf8ByteSize)

/-- Where a path leads. -/
def locate (d : Disk) (p : Path) (aim : Aim) : Except Fault Place :=
  if hasNul p then .error .nulInPath
  else if isTooLong p then .error .nameTooLong
  else
    let start := if p.anchor == .here then d.here.reverse else []
    d.top.walk aim Node.linkLimit start p.names

/-- The path is closed. -/
def isClosed (d : Disk) (p : Path) : Bool :=
  d.closed.contains p.text

/-- The node at a path, if there is one. Only what is too long is a fault. -/
def node? (d : Disk) (p : Path) : Except Fault (Option Node) :=
  match d.locate p .target with
  | .ok (.found _ node) => .ok (some node)
  | .error .nameTooLong => .error .nameTooLong
  | _ => .ok none

/-- Something is at the path. -/
def exists? (d : Disk) (p : Path) : Except Fault Bool :=
  (d.node? p).map Option.isSome

/-- A folder is at the path. -/
def isFolder? (d : Disk) (p : Path) : Except Fault Bool :=
  (d.node? p).map fun node => node.any Node.isFolder

/-- What a path settles to, as a path from the root. -/
def settled (d : Disk) (p : Path) : Except Fault Path :=
  match d.top.settle d.here ⟨p.anchor != .here, []⟩ p.names with
  | .spot s => .ok ⟨.root, s.absolute d.here⟩
  | .loop text =>
    let q := Path.ofString text
    .ok (if q.anchor == .here then ⟨.root, collapse (d.here ++ q.names)⟩
      else { q with names := collapse q.names })
  | .tooDeep => .error (.tooDeep .link)

/-- The path without links. -/
def resolve (d : Disk) (p : Path) : Except Fault Path :=
  if hasNul p then .error .nulInPath
  else do
    let q ← d.settled p
    match d.locate q .target with
    | .error .tooManyLinks => throw (.linkLoop q)
    | _ => return q

/-- The bytes of the file at a path. -/
def readBytes (d : Disk) (p : Path) : Except Fault (List UInt8) :=
  if d.isClosed p then .error .denied
  else
    match d.locate p .target with
    | .ok (.found _ (.file bytes)) => .ok bytes
    | .ok (.found _ (.folder _)) => .error .isFolder
    | .ok _ => .error .notFound
    | .error fault => .error fault

/-- The text of the file at a path, with line ends as they are; its bytes have to be text. -/
def readExact (d : Disk) (p : Path) : Except Fault (List Char) := do
  match Text.Utf8.decode? (← d.readBytes p) with
  | some text => return text
  | none => throw .undecodable

/-- The text of the file at a path; its bytes have to be text. Line ends are read as line feeds. -/
def readText (d : Disk) (p : Path) : Except Fault (List Char) :=
  (d.readExact p).map Text.plainNewlines

/-- The text of the file at a path, with line ends as they are; bytes that are no text are
replaced. -/
def readSource (d : Disk) (p : Path) : Except Fault (List Char) :=
  (d.readBytes p).map Text.Utf8.decodeLossy

/-- The entries of the folder at a path, closed or not, in the order of the system. -/
def entries (d : Disk) (p : Path) : Except Fault (List (String × Node)) :=
  match d.locate p .target with
  | .ok (.found _ (.folder entries)) => .ok entries
  | .ok (.found ..) => .error .notFolder
  | .ok (.free ..) => .error .notFound
  | .error fault => .error fault

/-- The entries of the folder at a path, in the order of the system. -/
def list (d : Disk) (p : Path) : Except Fault (List (String × Node)) :=
  if d.isClosed p then .error .denied else d.entries p

/-- The disk with bytes in the file at a path, which is made if it is not there. -/
def writeBytes (d : Disk) (p : Path) (bytes : List UInt8) : Except Fault Disk :=
  if d.isClosed p then .error .denied
  else
    match d.locate p .writing with
    | .ok (.found names (.file _)) => .ok { d with top := d.top.put names (.file bytes) }
    | .ok (.found _ _) => .error .isFolder
    | .ok (.free folder name) =>
      .ok { d with top := d.top.put (folder ++ [name]) (.file bytes) }
    | .error fault => .error fault

/-- The disk with a text in the file at a path. -/
def writeText (d : Disk) (p : Path) (text : String) : Except Fault Disk :=
  d.writeBytes p (Text.Utf8.encode text.toList)

/-- The disk with a node at a path where nothing is yet. -/
def place (d : Disk) (p : Path) (node : Node) : Except Fault Disk :=
  match d.locate p .itself with
  | .ok (.found ..) => .error .alreadyExists
  | .ok (.free folder name) => .ok { d with top := d.top.put (folder ++ [name]) node }
  | .error fault => .error fault

/-- The disk with a link at a path where nothing is yet. -/
def placeLink (d : Disk) (p : Path) (target : String) : Except Fault Disk :=
  if target == "" then .error .notFound
  else if target.toList.contains '\x00' then .error .nulInPath
  else if pathLimit ≤ target.utf8ByteSize then .error .nameTooLong
  else d.place p (.link target)

/-- The disk with a folder at a path; one that is there already will do. -/
def makeFolder (d : Disk) (p : Path) : Except Fault Disk :=
  match d.place p .emptyFolder with
  | .ok d => .ok d
  | .error fault =>
    if fault.ofSystem then
      match d.isFolder? p with
      | .ok true => .ok d
      | .ok false => .error fault
      | .error other => .error other
    else .error fault

/-- How many folders can be made on the way to one. -/
def folderLimit : Nat := 985

/-- Makes folders at the path of an anchor and names, the last name first, with so many more on the
way. What has been made stays if a later folder cannot be made. -/
def makeFoldersAt (anchor : Anchor) : Nat → List String → Disk → Except Fault Unit × Disk
  | _, [], d => (.ok (), d)
  | limit, name :: up, d =>
    let p : Path := ⟨anchor, (name :: up).reverse⟩
    match d.makeFolder p with
    | .ok d => (.ok (), d)
    | .error .notFound =>
      match limit with
      | 0 => (.error (.tooDeep .folder), d)
      | limit + 1 =>
        match makeFoldersAt anchor limit up d with
        | (.ok _, d) =>
          match d.makeFolder p with
          | .ok d => (.ok (), d)
          | .error fault => (.error fault, d)
        | failed => failed
    | .error fault => (.error fault, d)

/-- Makes a folder at a path and folders on the way to it. -/
def makeFolders (d : Disk) (p : Path) : Except Fault Unit × Disk :=
  makeFoldersAt p.anchor folderLimit p.names.reverse d

/-- The disk without what is at a path; a link at its end is not followed. -/
def remove (d : Disk) (p : Path) : Except Fault Disk :=
  match d.locate p .itself with
  | .ok (.found names _) => .ok { d with top := d.top.erase names }
  | .ok (.free ..) => .error .notFound
  | .error fault => .error fault

/-- The disk with a path closed. -/
def close (d : Disk) (p : Path) : Disk :=
  { d with closed := p.text :: d.closed }

end Disk

end WorkspaceAudit
