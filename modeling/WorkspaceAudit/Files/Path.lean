import WorkspaceAudit.Text.Lines
import WorkspaceAudit.Text.Lowercase
import WorkspaceAudit.Text.Quoted

/-!
# Paths

A path is an anchor and the names after it. Names that are empty or a single dot are left out;
`..` stays, because what it means depends on the links on the disk.

- `Path.ofString` and `Path.text` read and write a path;
- `Path.relativeTo?` is the part of a path below a folder;
- `Path.suffix` is the extension of its last name.
-/

namespace WorkspaceAudit

/-- Where a path begins. A path with exactly two slashes in front is kept apart from one with a
single slash. -/
inductive Anchor where
  | here
  | root
  | doubleRoot
  deriving Repr, DecidableEq

/-- The slashes that a path begins with. -/
def Anchor.text : Anchor → String
  | .here => ""
  | .root => "/"
  | .doubleRoot => "//"

/-- The anchor of a written path. -/
def Anchor.ofChars (s : List Char) : Anchor :=
  match (s.takeWhile (· == '/')).length with
  | 0 => .here
  | 2 => .doubleRoot
  | _ => .root

structure Path where
  anchor : Anchor
  names : List String
  deriving Repr, DecidableEq

namespace Path

/-- The names of a written path, without empty ones and single dots. -/
def namesOf (s : List Char) : List String :=
  ((Text.splitOn '/' s).map String.ofList).filter fun name => name != "" && name != "."

/-- The path that a text writes. -/
def ofString (s : String) : Path where
  anchor := .ofChars s.toList
  names := namesOf s.toList

/-- The path of names below a folder. -/
def extend (p : Path) (names : List String) : Path :=
  { p with names := p.names ++ names }

/-- The names with slashes between them, after the anchor. -/
def plainText (p : Path) : String :=
  p.anchor.text ++ Text.join "/" p.names

/-- The path as it is shown: the empty path is a single dot. -/
def text (p : Path) : String :=
  if p.plainText == "" then "." else p.plainText

/-- The last name; empty for a path without names. -/
def name (p : Path) : String :=
  p.names.getLastD ""

/-- The path without its last name. -/
def parent (p : Path) : Path :=
  { p with names := p.names.dropLast }

/-- `q` below `p`; a path with an anchor stands alone. -/
def join (p q : Path) : Path :=
  if q.anchor == .here then p.extend q.names else q

/-- The path of a text below `p`. -/
def below (p : Path) (s : String) : Path :=
  p.join (ofString s)

/-- The extension of a name: what follows its last dot, with the dot. A dot at either end of the
name begins no extension. -/
def suffixOf (name : String) : String :=
  let (extension, stem) := name.toList.reverse.span (· != '.')
  match extension, stem with
  | [], _ => ""
  | _, [] => ""
  | _, [_] => ""
  | _, _ => String.ofList ('.' :: extension.reverse)

/-- The extension of the last name. -/
def suffix (p : Path) : String :=
  suffixOf p.name

/-- The part of a path below a folder, if it is the folder or below it. -/
def relativeTo? (p root : Path) : Option Path :=
  if p.anchor == root.anchor && root.names.isPrefixOf p.names then
    some { anchor := .here, names := p.names.drop root.names.length }
  else none

/-- What is said of a path that is not below a folder. -/
def outsideMessage (p root : Path) : String :=
  Text.quoted p.text ++ " is not in the subpath of " ++ Text.quoted root.plainText ++
    " OR one path is relative and the other is absolute."

end Path

end WorkspaceAudit
