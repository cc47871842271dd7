import WorkspaceAudit.Ignore.Glob
import WorkspaceAudit.Suppress.Fixture
import WorkspaceAudit.Text.Blank

/-!
# Ignore rules

The lines of an ignore file, each a glob. Blank lines, comments and negated lines are left out, so
that no line can take back what another one ignores.
-/

namespace WorkspaceAudit

/-- The globs of the ignore files of a project. -/
abbrev IgnoreRules := List Glob

namespace IgnoreRules

/-- The files that hold ignore rules, in order. -/
def fileNames : List String := [".gitignore", ".aiignore"]

/-- The glob of a line, if it has one. -/
def ofLine? (line : List Char) : Option Glob :=
  match Text.trim line with
  | [] => none
  | '#' :: _ => none
  | '!' :: _ => none
  | text => some (.ofText text)

/-- The globs of lines. -/
def ofLines (lines : List (List Char)) : IgnoreRules :=
  lines.filterMap ofLine?

/-- The globs of the text of a file. -/
def ofText (text : List Char) : IgnoreRules :=
  ofLines (Text.splitLines text)

/-- Some glob covers the path, in which backslashes count as slashes. -/
def ignores (rules : IgnoreRules) (path : String) : Bool :=
  rules.any (·.covers (Text.forwardSlashes path))

end IgnoreRules

end WorkspaceAudit
