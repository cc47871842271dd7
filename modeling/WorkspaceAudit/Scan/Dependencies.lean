import WorkspaceAudit.Finding.Basic
import WorkspaceAudit.Json.Foreign
import WorkspaceAudit.Workspace.Machine

/-!
# Vulnerable dependencies

The output of the audit tool names the vulnerable packages of a project, each with a severity, the
advisories it comes from, and whether there is a fix.
-/

namespace WorkspaceAudit

namespace Audit

/-- The severity of a word of the audit tool; any other word is information. -/
def severity (word : String) : Severity :=
  match Text.lower word with
  | "critical" => .critical
  | "high" => .high
  | "moderate" => .medium
  | "low" => .low
  | _ => .info

/-- The members of a value, which has to be an object. -/
def members : Json LooseText → Except Fault Json.Members
  | .object members => .ok members
  | _ => .error .noMembers

/-- The value itself if it counts as present. -/
def present? (v : Option (Json LooseText)) : Option (Json LooseText) :=
  v.filter Json.isTruthy

/-- The parts of a value that can be gone through. -/
def parts : Json LooseText → Except Fault (List (Json LooseText))
  | .string s => .ok (s.points.map fun p => .string ⟨[p]⟩)
  | .array items => .ok items
  | .object members => .ok (members.map fun m => .string m.1)
  | _ => .error .wrongKind

/-- The name that an advisory goes by. -/
def advisoryName : Json LooseText → Option (Json LooseText)
  | .string s => some (.string s)
  | .object advisory =>
    match present? (Json.Members.get? advisory "title") with
    | some title => some title
    | none => present? (Json.Members.get? advisory "url")
  | _ => none

/-- A name has to be a text. -/
def nameText : Json LooseText → Except Fault LooseText
  | .string s => .ok s
  | _ => .error .wrongKind

/-- The names of the advisories of a package, without empty ones. -/
def advisoryNames (via : Option (Json LooseText)) : Except Fault (List LooseText) := do
  let advisories ← match present? via with
    | some v => parts v
    | none => .ok []
  ((advisories.filterMap advisoryName).filter Json.isTruthy).mapM nameText

/-- The advice on a package. -/
def advice (fixable : Bool) : String :=
  if fixable then "Run `npm audit fix` to apply available fixes."
  else "No automatic fix available. Consider replacing or pinning the dependency."

/-- The finding of a vulnerable package. -/
def finding (package : LooseText) (v : Json LooseText) : Except Fault Finding := do
  let vulnerability ← members v
  let word := ((vulnerability.get? "severity").map Json.spoken).getD ""
  let names ← advisoryNames (vulnerability.get? "via")
  let via := LooseText.join ", " names
  let title := "Vulnerable dependency: " ++ package
  let description := package ++ " has a " ++ word ++ " severity vulnerability. Via: " ++
    (if via.isEmpty then .ofString "transitive" else via)
  return {
    scanner := .deps
    severity := severity word.plain
    title := title.plain
    description := description.plain
    location := .file "package.json"
    remediation := some (advice (present? (vulnerability.get? "fixAvailable")).isSome)
    lone := title.lone?.or description.lone? }

/-- The findings of the output of the audit tool, one for each vulnerable package. -/
def findings (output : Json LooseText) : Except Fault (List Finding) := do
  let payload ← members output
  let packages ← match present? (payload.get? "vulnerabilities") with
    | some v => members v
    | none => .ok []
  packages.mapM fun (package, v) => finding package v

/-- The output of the audit tool, if it ran and printed an object. -/
def output? : AuditTool → Except Fault (Option (Json LooseText))
  | .prints text => do
    match ← Json.ofForeign? text.toList with
    | some (.object payload) => return some (.object payload)
    | _ => return none
  | _ => .ok none

end Audit

/-- The findings on the dependencies of a project. Only a project with a package file is
audited. -/
def scanDependencies (m : Machine) (project : Path) : Except Fault (List Finding) := do
  if ← m.disk.exists? (project.below "package.json") then
    match ← Audit.output? m.auditTool with
    | some output => Audit.findings output
    | none => return []
  else return []

end WorkspaceAudit
