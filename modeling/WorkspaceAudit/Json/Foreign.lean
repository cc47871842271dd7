import WorkspaceAudit.Files.Fault
import WorkspaceAudit.Json.Parser

/-!
# JSON of other programs

A text that is no JSON is passed over. One that goes beyond the bounds of the reader is a fault. The
texts in a value may hold halves of pairs that stand alone.
-/

namespace WorkspaceAudit.Json

/-- The fault of a text that is beyond the bounds; none for one that is malformed. -/
def ReadError.fault? : ReadError → Option Fault
  | .malformed => none
  | .tooDeep true => some (.tooDeep .array)
  | .tooDeep false => some (.tooDeep .object)
  | .tooManyDigits digits => some (.tooManyDigits digits)

/-- The value that another program has written, if its text is JSON. -/
def ofForeign? (s : List Char) : Except Fault (Option (Json LooseText)) :=
  match parse .foreign s with
  | .ok v => .ok (some v)
  | .error e =>
    match e.fault? with
    | none => .ok none
    | some fault => .error fault

/-- The members of an object that another program has written. -/
abbrev Members := List (LooseText × Json LooseText)

/-- The value of a member. -/
def Members.get? (ms : Members) (name : String) : Option (Json LooseText) :=
  ms.lookup (.ofString name)

end WorkspaceAudit.Json
