import WorkspaceAudit.Files.Path

/-!
# File trees

A node is a file, a link or a folder. A link holds the text of the path that it leads to, as it was
written. The entries of a folder stand in the order in which the system lists them.

- `Node.find?` is the node at a row of names, without following links;
- `Node.put` puts a node at a row of names;
- `Node.erase` takes the node at a row of names away.
-/

namespace WorkspaceAudit

inductive Node where
  | file (bytes : List UInt8)
  | link (target : String)
  | folder (entries : List (String × Node))

namespace Node

/-- A folder without entries. -/
def emptyFolder : Node := .folder []

def isFolder : Node → Bool
  | .folder _ => true
  | _ => false

/-- The node that a name has in a folder. -/
def child? (n : Node) (name : String) : Option Node :=
  match n with
  | .folder entries => entries.lookup name
  | _ => none

/-- The node at a row of names. -/
def find? (n : Node) : List String → Option Node
  | [] => some n
  | name :: rest =>
    match n.child? name with
    | some c => c.find? rest
    | none => none

/-- Entries with a node under a name: in the place of the old one, or at the end. -/
def putEntry (name : String) (node : Node) : List (String × Node) → List (String × Node)
  | [] => [(name, node)]
  | (other, old) :: more =>
    if other == name then (name, node) :: more else (other, old) :: putEntry name node more

/-- The tree with a node at a row of names. Folders on the way are made as needed; a file or link
on the way is left as it is. -/
def put (n : Node) : List String → Node → Node
  | [], node => node
  | name :: rest, node =>
    match n with
    | .folder entries =>
      let old := (entries.lookup name).getD emptyFolder
      .folder (putEntry name (old.put rest node) entries)
    | other => other

/-- The tree without the node at a row of names. -/
def erase (n : Node) : List String → Node
  | [] => n
  | [name] =>
    match n with
    | .folder entries => .folder (entries.filter (·.1 != name))
    | other => other
  | name :: rest =>
    match n with
    | .folder entries =>
      match entries.lookup name with
      | some old => .folder (putEntry name (old.erase rest) entries)
      | none => .folder entries
    | other => other

end Node

end WorkspaceAudit
