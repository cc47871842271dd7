import WorkspaceAudit.Rule.Basic

/-!
# Candidates and verdicts
-/

namespace WorkspaceAudit

/-- A match of a rule, with what the stages need to know of its place. -/
structure Candidate where
  rule : Rule
  /-- The path of the file in the project. -/
  path : String
  /-- The number of the line on which the match starts, counted from 1. -/
  lineNumber : Int
  /-- The line on which the match starts. -/
  line : List Char
  /-- The matched text. -/
  text : List Char
  /-- The character in front of the match. -/
  before : Option Char := none
  /-- The text after the match, up to the end of its line. -/
  after : List Char := []
  deriving Repr, DecidableEq

/-- What a finding says in place of its rule's own words. -/
structure Restatement where
  severity : Severity
  title : String
  description : String
  remediation : String
  deriving Repr, DecidableEq

/-- The answer of a stage. -/
inductive Verdict where
  /-- The candidate is not reported. -/
  | drop
  /-- No opinion: the next stage is asked. -/
  | pass
  /-- The candidate is reported in other words. -/
  | restate (words : Restatement)
  deriving Repr, DecidableEq

/-- A named step that judges candidates. -/
structure Stage where
  name : String
  judge : Candidate → Verdict

/-- The first answer of the stages that is an opinion. -/
def judge : List Stage → Candidate → Verdict
  | [], _ => .pass
  | stage :: more, candidate =>
    match stage.judge candidate with
    | .pass => judge more candidate
    | verdict => verdict

end WorkspaceAudit
