import WorkspaceAudit.Finding.Basic
import WorkspaceAudit.Rule.Insecure
import WorkspaceAudit.Rule.Secrets
import WorkspaceAudit.Suppress.Stage
import WorkspaceAudit.Text.Blank

/-!
# Rule sets

A rule set is all that a scanner which follows rules needs: the rules, how many findings each may
have in a file, the stages, the description of a finding, and the files to read.
-/

namespace WorkspaceAudit

structure RuleSet where
  scanner : Scanner
  rules : List Rule
  /-- How many findings in the words of the rule each rule may have in a file. -/
  cap : Nat
  stages : List Stage
  describe : Candidate → String
  /-- The extensions of the files to read. -/
  extensions : List String
  /-- Environment files are read too, whatever their extension. -/
  includesEnvFiles : Bool := false

/-- The path of a candidate with its line. -/
def Candidate.place (c : Candidate) : String :=
  c.path ++ ":" ++ Text.Decimal.ofInt c.lineNumber

/-- The matched value is never part of the description. -/
def describeSecret (c : Candidate) : String :=
  "Potential secret found in " ++ c.place

/-- The description shows the start of the line. -/
def describeInsecure (c : Candidate) : String :=
  c.place ++ " - " ++ String.ofList ((Text.trim c.line).take 120)

namespace RuleSet

/-- Leaked secrets. -/
def secrets : RuleSet where
  scanner := .secrets
  rules := Rule.secrets
  cap := 3
  stages := Stage.forSecrets
  describe := describeSecret
  extensions :=
    [".ts", ".js", ".py", ".go", ".env", ".json", ".yaml", ".yml", ".sh", ".bash", ".conf",
     ".config", ".ini", ".toml", ".php", ".rb", ".java", ".cs", ".cpp", ".c", ".h"]
  includesEnvFiles := true

/-- Insecure code. -/
def insecure : RuleSet where
  scanner := .patterns
  rules := Rule.insecure
  cap := 5
  stages := Stage.forInsecure
  describe := describeInsecure
  extensions := (Rule.insecure.flatMap fun rule => rule.extensions.getD []).eraseDups

end RuleSet

end WorkspaceAudit
