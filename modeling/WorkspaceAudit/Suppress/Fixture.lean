import WorkspaceAudit.Finding.Basic
import WorkspaceAudit.Suppress.Marks
import WorkspaceAudit.Text.Lines

/-!
# Test fixtures

A file that holds test data on purpose is known by its folder, its name, or a pragma in its first
lines. Findings in it stay visible, but are only information.
-/

namespace WorkspaceAudit

/-- The path with slashes for backslashes. -/
def Text.forwardSlashes (path : String) : List Char :=
  path.toList.map fun c => if c == '\\' then '/' else c

/-- The number of lines that are searched for a pragma. -/
def pragmaLines : Nat := 5

/-- The first lines of a text. -/
def header (content : List Char) : List Char :=
  Text.joinLines ((Text.splitLines content).take pragmaLines)

/-- The file lies in a folder for test data. -/
def inFixtureFolder (path : String) : Bool :=
  Mark.fixtureFolder.found ('/' :: Text.forwardSlashes path)

/-- The file has the name of test data. -/
def hasFixtureName (path : String) : Bool :=
  Mark.fixtureName.found (Text.forwardSlashes path)

/-- A pragma in the first lines declares the text to be test data. -/
def hasFixturePragma (content : List Char) : Bool :=
  Mark.fixturePragma.found (header content)

/-- The file holds test data on purpose. -/
def isFixture (path : String) (content : List Char) : Bool :=
  inFixtureFolder path || hasFixtureName path || hasFixturePragma content

/-- The finding as one in test data: only information, and marked as such. -/
def Finding.asFixture (f : Finding) : Finding :=
  { f with
    severity := .info
    title := "[test fixture] " ++ f.title
    description :=
      f.description ++ "  -  intentional test data; add a `# nosec` comment to suppress" }

end WorkspaceAudit
