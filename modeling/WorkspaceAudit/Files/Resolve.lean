import WorkspaceAudit.Files.Fault
import WorkspaceAudit.Files.Tree

/-!
# Following links

- `Node.walk` goes along a row of names as the system does: link by link, up to a limit, and every
  name on the way has to be there;
- `Node.settle` replaces the links of a path by what they lead to. Names that are not there stay.
  A link that leads back to itself ends the replacement, and what has been read so far is put
  together with the text that is left. Only so many links can lead from one to the next.
-/

namespace WorkspaceAudit

/-- Where a row of names leads: to a node, or to a name that is free in a folder. -/
inductive Place where
  | found (names : List String) (node : Node)
  | free (folder : List String) (name : String)

/-- What a row of names is gone along for. -/
inductive Aim where
  /-- For what is there, behind a link at the end. -/
  | target
  /-- For what is there, the link at the end itself. -/
  | itself
  /-- For a file to write, which may not be there yet. -/
  | writing
  deriving Repr, DecidableEq

/-- The parts of a text between its slashes, empty ones included. -/
def slashParts (s : String) : List String :=
  (Text.splitOn '/' s.toList).map String.ofList

/-- The text begins with a slash. -/
def isRooted (s : String) : Bool :=
  s.toList.head? == some '/'

namespace Node

/-- The length in bytes that a name may have. -/
def longestName : Nat := 255

/-- The names that a link is followed along. A slash at the end of its text stays as an empty name:
only a folder will do there. -/
def route (target : String) : List String :=
  let parts := slashParts target
  parts.filter (· != "") ++ (if parts.getLast? == some "" then [""] else [])

/-- Along names from a node; `here` holds its own names, the last one first. `jump` goes on from a
place along other names. -/
def walkWith (top : Node) (aim : Aim)
    (jump : List String → List String → Except Fault Place) :
    Node → List String → List String → Except Fault Place
  | node, here, [] => .ok (.found here.reverse node)
  | .folder entries, here, name :: rest =>
    if name == "" || name == "." then walkWith top aim jump (.folder entries) here rest
    else if name == ".." then
      match top.find? here.tail.reverse with
      | some node => walkWith top aim jump node here.tail rest
      | none => .error .notFound
    else if aim == .writing && rest == [""] then .error .isFolder
    else if longestName < name.utf8ByteSize then .error .nameTooLong
    else
      match entries.lookup name with
      | none => if rest.isEmpty then .ok (.free here.reverse name) else .error .notFound
      | some (.link target) =>
        if rest.isEmpty && aim == .itself then .ok (.found (name :: here).reverse (.link target))
        else jump (if isRooted target then [] else here) (route target ++ rest)
      | some node => walkWith top aim jump node (name :: here) rest
  | _, _, _ :: _ => .error .notFolder

/-- Along names from the place `here`, whose last name stands first, over at most so many links. -/
def walk (top : Node) (aim : Aim) : Nat → List String → List String → Except Fault Place
  | 0, here, todo =>
    match top.find? here.reverse with
    | some node => walkWith top aim (fun _ _ => .error .tooManyLinks) node here todo
    | none => .error .notFound
  | links + 1, here, todo =>
    match top.find? here.reverse with
    | some node => walkWith top aim (walk top aim links) node here todo
    | none => .error .notFound

/-- The number of links that the system follows on one path. -/
def linkLimit : Nat := 40

end Node

/-- A place that a path has been followed to: from the root, or from the working folder. Only a
place of the second kind may begin with `..`. -/
structure Spot where
  rooted : Bool
  names : List String
  deriving Repr, DecidableEq

namespace Spot

/-- The place of a name in a place. -/
def down (s : Spot) (name : String) : Spot :=
  { s with names := s.names ++ [name] }

/-- The place around a place. -/
def up (s : Spot) : Spot :=
  if s.rooted then { s with names := s.names.dropLast }
  else
    match s.names.getLast? with
    | none => { s with names := [".."] }
    | some last =>
      if last == ".." then { s with names := s.names ++ [".."] }
      else { s with names := s.names.dropLast }

def text (s : Spot) : String :=
  (if s.rooted then "/" else "") ++ Text.join "/" s.names

end Spot

/-- The names without dots, and with every `..` taken together with the name in front of it. -/
def collapse (names : List String) : List String :=
  names.foldl (fun done name =>
    if name == "" || name == "." then done
    else if name == ".." then done.dropLast
    else done ++ [name]) []

/-- The names of a place from the root. -/
def Spot.absolute (here : List String) (s : Spot) : List String :=
  if s.rooted then s.names else collapse (here ++ s.names)

/-- A text below another; one that begins with a slash stands alone. -/
def joinText (a b : String) : String :=
  if isRooted b then b
  else if a == "" || a.toList.getLast? == some '/' then a ++ b
  else a ++ "/" ++ b

/-- What a path settles to. -/
inductive Settled where
  | spot (s : Spot)
  /-- A link led back to itself; the text is what has been followed and what is left. -/
  | loop (text : String)
  | tooDeep
  deriving Repr, DecidableEq

/-- The links that have been met: those that are being followed, and those that have been followed
to a place. -/
abbrev LinksMet := List (Spot × Option Spot)

namespace Node

/-- What names settle to from a place. `find` is the node at a place, and `enter` settles the
target of a link from the place that the link is in. -/
def settleWith (find : Spot → Option Node)
    (enter : LinksMet → Spot → String → Settled × LinksMet) :
    LinksMet → Spot → List String → Settled × LinksMet
  | met, spot, [] => (.spot spot, met)
  | met, spot, name :: rest =>
    if name == "" || name == "." then settleWith find enter met spot rest
    else if name == ".." then settleWith find enter met spot.up rest
    else
      match find (spot.down name) with
      | some (.link target) =>
        match met.lookup (spot.down name) with
        | some (some there) => settleWith find enter met there rest
        | some none => (.loop (joinText (spot.down name).text (Text.join "/" rest)), met)
        | none =>
          match enter ((spot.down name, none) :: met) spot target with
          | (.spot there, met) =>
            settleWith find enter ((spot.down name, some there) :: met) there rest
          | (.loop text, met) => (.loop (joinText text (Text.join "/" rest)), met)
          | (.tooDeep, met) => (.tooDeep, met)
      | _ => settleWith find enter met (spot.down name) rest

/-- What the target of a link settles to, with so many links on the way from one to the next. -/
def settleLink (find : Spot → Option Node) :
    Nat → LinksMet → Spot → String → Settled × LinksMet
  | 0, met, _, _ => (.tooDeep, met)
  | limit + 1, met, spot, target =>
    if isRooted target then
      settleWith find (settleLink find limit) met ⟨true, []⟩ ((slashParts target).drop 1)
    else settleWith find (settleLink find limit) met spot (slashParts target)

/-- How many links can lead from one to the next. -/
def settleLimit : Nat := 985

/-- What names settle to from a place in a tree with the working folder `here`. -/
def settle (top : Node) (here : List String) (spot : Spot) (names : List String) : Settled :=
  let find (s : Spot) := top.find? (s.absolute here)
  (settleWith find (settleLink find settleLimit) [] spot names).1

end Node

end WorkspaceAudit
