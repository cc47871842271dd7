import WorkspaceAudit.Finding.Severity
import WorkspaceAudit.Text.Decimal
import WorkspaceAudit.Text.Loose

/-!
# Findings
-/

namespace WorkspaceAudit

/-- Where a finding is: in the project as a whole, in a file, or on a line of a file. Lines are
counted from 1. -/
inductive Location where
  | project
  | file (path : String)
  | line (path : String) (number : Nat)
  deriving Repr, DecidableEq

namespace Location

def path? : Location → Option String
  | .project => none
  | .file path => some path
  | .line path _ => some path

def line? : Location → Option Nat
  | .line _ n => some n
  | _ => none

/-- The file, with the line after a colon; nothing for the whole project. -/
def text : Location → String
  | .project => ""
  | .file path => path
  | .line path n => path ++ ":" ++ Text.Decimal.ofNat n

/-- The text of a location, or a stand-in where that is empty. -/
def textOr (l : Location) (standIn : String) : String :=
  if l.text == "" then standIn else l.text

end Location

/-- One issue that a scanner reports. -/
structure Finding where
  scanner : Scanner
  severity : Severity
  title : String
  description : String
  location : Location := .project
  remediation : Option String := none
  /-- The first halves of pairs that stood alone in the title or the description, which have the
  replacement character for each. -/
  lone : Option LoneHalves := none
  deriving Repr, DecidableEq

namespace Finding

/-- The advice of a finding, unless it is missing or empty. -/
def advice? (f : Finding) : Option String :=
  f.remediation.filter (· != "")

/-- The line numbers of findings. -/
def lineNumbers (findings : List Finding) : List Int :=
  findings.filterMap fun f => f.location.line?.map Int.ofNat

end Finding

end WorkspaceAudit
