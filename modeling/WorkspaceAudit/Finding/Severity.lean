/-!
# Severities and scanners
-/

namespace WorkspaceAudit

/-- How severe a finding is, the most severe first. -/
inductive Severity where
  | critical
  | high
  | medium
  | low
  | info
  deriving Repr, DecidableEq

namespace Severity

/-- All severities, the most severe first. -/
def all : List Severity := [.critical, .high, .medium, .low, .info]

/-- 0 for the most severe, 4 for the least. -/
def rank : Severity → Nat
  | .critical => 0
  | .high => 1
  | .medium => 2
  | .low => 3
  | .info => 4

def name : Severity → String
  | .critical => "CRITICAL"
  | .high => "HIGH"
  | .medium => "MEDIUM"
  | .low => "LOW"
  | .info => "INFO"

/-- The severity of a name, which is written in capitals. -/
def ofName? (s : String) : Option Severity :=
  all.find? (·.name == s)

end Severity

/-- The scanner that reports a finding. -/
inductive Scanner where
  | secrets
  | deps
  | patterns
  | auth
  | threatModel
  deriving Repr, DecidableEq

namespace Scanner

def all : List Scanner := [.secrets, .deps, .patterns, .auth, .threatModel]

def name : Scanner → String
  | .secrets => "secrets"
  | .deps => "deps"
  | .patterns => "patterns"
  | .auth => "auth"
  | .threatModel => "threat-model"

def ofName? (s : String) : Option Scanner :=
  all.find? (·.name == s)

end Scanner

end WorkspaceAudit
