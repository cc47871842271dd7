import WorkspaceAudit.Finding.Severity
import WorkspaceAudit.Pattern.Search
import WorkspaceAudit.Text.Lowercase

/-!
# Detection rules
-/

namespace WorkspaceAudit

/-- A named pattern with the severity and the advice of what it finds. -/
structure Rule where
  name : String
  pattern : Pattern
  severity : Severity
  remediation : String
  /-- The extensions, in small letters and with their dot, of the files that the rule is for; none
  means all files. -/
  extensions : Option (List String) := none
  /-- The title of its findings. -/
  title : String := name
  /-- Matches on comment lines count too. -/
  inComments : Bool := false
  /-- Credentials for a database on this machine are of low severity. -/
  sparesLoopback : Bool := false
  deriving Repr, DecidableEq

/-- The rule with another title, unless that is empty. -/
def Rule.withTitle (rule : Rule) (title : String) : Rule :=
  if title == "" then rule else { rule with title := title }

/-- The rule is for files with this extension. -/
def Rule.appliesTo (rule : Rule) (extension : String) : Bool :=
  match rule.extensions with
  | none => true
  | some extensions => extensions.contains (Text.lower extension)

end WorkspaceAudit
