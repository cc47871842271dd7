import WorkspaceAudit.Text.Lines

/-!
# Text by lines and by offsets

`Located` keeps a text whole and cut into lines, and goes between offsets, which count characters
from the start of the text, and lines, which are counted from 1.
-/

namespace WorkspaceAudit

/-- A text with its lines and the offset at which each of them starts. -/
structure Located where
  content : List Char
  lines : List (List Char)
  starts : List Nat
  deriving Repr, DecidableEq

namespace Located

/-- The offsets at which lines start, the first of them at `offset`. -/
def startsFrom (offset : Nat) : List (List Char) → List Nat
  | [] => []
  | line :: more => offset :: startsFrom (offset + line.length + 1) more

def ofContent (content : List Char) : Located :=
  let lines := Text.splitLines content
  { content := content, lines := lines, starts := startsFrom 0 lines }

/-- The number of the line that holds an offset: how many lines start at it or before. -/
def lineNumberAt (t : Located) (offset : Int) : Nat :=
  t.starts.countP fun (start : Nat) => decide ((start : Int) ≤ offset)

/-- The text of a line; empty for a line that is not there. -/
def lineText (t : Located) (number : Int) : List Char :=
  if 1 ≤ number then (t.lines[(number - 1).toNat]?).getD [] else []

/-- The offset in characters from the start of the text. A negative offset counts from the end. -/
def place (t : Located) (offset : Int) : Nat :=
  if 0 ≤ offset then offset.toNat else (offset + t.content.length).toNat

/-- The text from an offset up to the end of its line. -/
def restOfLine (t : Located) (offset : Int) : List Char :=
  (t.content.drop (t.place offset)).takeWhile (· != '\n')

end Located

end WorkspaceAudit
