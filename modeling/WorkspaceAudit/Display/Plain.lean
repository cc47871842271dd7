import WorkspaceAudit.Display.Styled
import WorkspaceAudit.Text.Lines

/-!
# Printed items as plain lines

A layout without colours: markup is taken out, and the columns of a table are as wide as their
widest cell.
-/

namespace WorkspaceAudit.Display

/-- A tag of the markup. -/
def tag : Pattern :=
  Pattern.chain
    [Pattern.lit "[", Pattern.perhaps (.of "/"), Pattern.anyMany (.union .smallLetter (.of " ")),
     Pattern.lit "]"]

/-- A line without its markup. -/
def withoutTags (s : String) : String :=
  String.ofList (tag.erase s.toList)

def Cell.plain : Cell → String
  | .text s => s
  | .styled t => t.plain

/-- A text with spaces after it, up to a width. -/
def padTo (width : Nat) (s : String) : String :=
  s ++ String.ofList (List.replicate (width - s.length) ' ')

/-- The width of a column of a table. -/
def columnWidth (rows : List (List String)) (i : Nat) : Nat :=
  rows.foldl (fun width row => max width ((row[i]?).getD "").length) 0

/-- The rows of a table as lines. -/
def tableLines (rows : List (List String)) : List String :=
  rows.map fun row =>
    Text.join "  " (row.mapIdx fun i cell => padTo (columnWidth rows i) cell)

/-- The lines of a printed item. -/
def linesOf : Printed → List String
  | .blank => [""]
  | .markup s => [withoutTags s]
  | .styled t => [t.plain]
  | .panel t => [t.plain]
  | .table t => t.title.toList ++ tableLines (t.columns :: t.rows.map (·.map Cell.plain))

end WorkspaceAudit.Display
