import WorkspaceAudit.Suppress.Candidate
import WorkspaceAudit.Suppress.Marks
import WorkspaceAudit.Text.Decimal

/-!
# Suppression stages

Each stage looks at one thing. All but `Stage.loopbackDatabase` only drop candidates.
-/

namespace WorkspaceAudit

/-- The line carries a comment that opts it out. -/
def isOptedOut (line : List Char) : Bool := Mark.optOut.found line

/-- The line is a comment. -/
def isComment (line : List Char) : Bool := (Mark.comment.matchStart line).isSome

/-- The line is a property in a table of rules. -/
def isRuleDefinition (line : List Char) : Bool := Mark.ruleDefinition.found line

/-- The line is an example. -/
def isPlaceholderLine (line : List Char) : Bool := Mark.placeholderLine.found line

/-- The value is obviously no credential. -/
def isPlaceholderValue (value : List Char) : Bool :=
  Mark.placeholderWord.found value || Mark.testWord.found value ||
    Mark.repeatedChar.found value || Mark.templateVariable.found value ||
    Mark.placeholderEnding.found value

/-- The text begins with the name of a host on this machine. -/
def startsWithLoopback (text : List Char) : Bool := (Mark.loopbackHost.matchStart text).isSome

/-- The path is one of a test source. -/
def isTestSource (path : String) : Bool := Mark.testSource.found path.toList

namespace Stage

/-- A stage that drops the candidates of a class and has no opinion on others. -/
def dropping (name : String) (p : Candidate → Bool) : Stage where
  name := name
  judge candidate := if p candidate then .drop else .pass

/-- Drops matches on comment lines, unless the rule looks into comments. -/
def commentLine : Stage :=
  dropping "comment line" fun c => !c.rule.inComments && isComment c.line

/-- Drops matches right after a slash, which are taken for parts of a regular expression. -/
def regexLiteral : Stage :=
  dropping "regex literal" fun c => c.before == some '/'

/-- Drops matches on lines that are opted out. -/
def inlineOptOut : Stage :=
  dropping "inline opt-out" fun c => isOptedOut c.line

/-- Drops matches on the lines of a table of rules. -/
def ruleDefinition : Stage :=
  dropping "rule definition" fun c => isRuleDefinition c.line

/-- Drops matches on example lines. -/
def placeholderLine : Stage :=
  dropping "placeholder line" fun c => isPlaceholderLine c.line

/-- Drops matches that are obviously no credentials. -/
def placeholderValue : Stage :=
  dropping "placeholder value" fun c => isPlaceholderValue c.text

/-- What is said of credentials for a database on this machine. -/
def loopbackWords (c : Candidate) : Restatement where
  severity := .low
  title := c.rule.name ++ " detected (localhost - dev only)"
  description := "Local database URL with credentials in " ++ c.path ++ ":" ++
    Text.Decimal.ofInt c.lineNumber ++ ". Fine for development; ensure production uses env vars."
  remediation := "Use a DATABASE_URL environment variable so production credentials are never " ++
    "in source code."

/-- Restates credentials for a database on this machine as of low severity. The match ends in front
of the host. -/
def loopbackDatabase : Stage where
  name := "loopback database"
  judge c :=
    if c.rule.sparesLoopback && startsWithLoopback c.after then .restate (loopbackWords c)
    else .pass

/-- Drops matches of rules of low severity in test sources. -/
def testSource : Stage :=
  dropping "test source" fun c => c.rule.severity == .low && isTestSource c.path

/-- The stages for secrets. -/
def forSecrets : List Stage :=
  [commentLine, regexLiteral, inlineOptOut, ruleDefinition, placeholderLine, placeholderValue,
   loopbackDatabase]

/-- The stages for insecure code. -/
def forInsecure : List Stage :=
  [commentLine, regexLiteral, inlineOptOut, ruleDefinition, testSource]

end Stage

end WorkspaceAudit
