import WorkspaceAudit.Files.Fault
import WorkspaceAudit.Json.Check
import WorkspaceAudit.Json.Parser
import WorkspaceAudit.Json.Printer
import WorkspaceAudit.Report.Basic

/-!
# Reports as JSON

Writing gives every field in a fixed order, with null for what is absent. Reading takes fields in
any order, ignores unknown ones, and lists all problems in the order of the fields.
-/

namespace WorkspaceAudit

/-- Null for what is absent. -/
def Json.ofOption {α : Type} (write : α → Json) : Option α → Json
  | some a => write a
  | none => .null

/-- What a text of JSON holds, or the problem that it is none. -/
def Checked.ofText {α : Type} (check : Json → Checked α) (s : List Char) : Checked α :=
  match Json.parse .own s with
  | .ok v => check v
  | .error _ => .fail .notJson

namespace Finding

def toJson (f : Finding) : Json :=
  .object
    [("module", .string f.scanner.name), ("severity", .string f.severity.name),
     ("title", .string f.title), ("description", .string f.description),
     ("file", .ofOption .string f.location.path?),
     ("line", .ofOption (fun n => .int n) f.location.line?),
     ("remediation", .ofOption .string f.remediation)]

/-- The location of a file and a line, of which either may be absent. A line needs a file. -/
def locate (file : Option String) (line : Option Int) : Checked Location :=
  match file, line with
  | none, none => .ok .project
  | some path, none => .ok (.file path)
  | some path, some n => .ok (.line path n.toNat)
  | none, some _ => .fail .lineWithoutFile

def check : Json → Checked Finding :=
  Check.object fun m =>
    ((Check.required (Check.named Scanner.ofName? .notScanner) m "module").and
      ((Check.required (Check.named Severity.ofName? .notSeverity) m "severity").and
        ((Check.required Check.text m "title").and
          ((Check.required Check.text m "description").and
            ((Check.optional Check.text m "file").and
              ((Check.optional (Check.integerFrom 1) m "line").and
                (Check.optional Check.text m "remediation"))))))).bind
      fun (scanner, severity, title, description, file, line, remediation) =>
        (locate file line).map fun location =>
          { scanner := scanner, severity := severity, title := title, description := description,
            location := location, remediation := remediation }

/-- What can be set of a finding. -/
inductive Attribute where
  | field (name : String)
  /-- What kind of thing the finding is. -/
  | kind
  /-- All fields at once. -/
  | fields
  /-- Something that is for reading only. -/
  | readOnly
  /-- A note that is no part of the finding. -/
  | note
  deriving Repr, DecidableEq

/-- The attribute of a name: a note if it begins with an underscore, and else a field. -/
def Attribute.ofName (name : String) : Attribute :=
  if name.toList.head? == some '_' then .note else .field name

/-- The finding with an attribute set to a value. A finding never changes: no field can be set, no
value is a kind of things, and other fields make it no finding any more. Notes leave it as it is. -/
def assign (f : Finding) (a : Attribute) (value : Json) : Except Fault Finding :=
  match a, value with
  | .field name, _ => .error (.invalid [⟨[.field name], .frozen⟩])
  | .kind, _ => .error .wrongKind
  | .fields, .object _ => .error .noMembers
  | .fields, _ => .error .wrongKind
  | .readOnly, _ => .error .noMembers
  | .note, _ => .ok f

end Finding

namespace Summary

def toJson (s : Summary) : Json :=
  .object
    [("critical", .int s.critical), ("high", .int s.high), ("medium", .int s.medium),
     ("low", .int s.low), ("info", .int s.info)]

def check : Json → Checked Summary :=
  Check.object fun m =>
    ((Check.withDefault 0 Check.integer m "critical").and
      ((Check.withDefault 0 Check.integer m "high").and
        ((Check.withDefault 0 Check.integer m "medium").and
          ((Check.withDefault 0 Check.integer m "low").and
            (Check.withDefault 0 Check.integer m "info"))))).map
      fun (critical, high, medium, low, info) =>
        { critical := critical, high := high, medium := medium, low := low, info := info }

end Summary

namespace Report

def toJson (r : Report) : Json :=
  .object
    [("project", .string r.project), ("project_path", .string r.projectPath),
     ("scanned_at", .string r.scannedAt.text), ("score", .string r.grade.name),
     ("score_numeric", .int r.points), ("findings", .array (r.findings.map Finding.toJson)),
     ("summary", r.summary.toJson), ("duration_ms", .int r.durationMs)]

def check : Json → Checked Report :=
  Check.object fun m =>
    ((Check.required Check.text m "project").and
      ((Check.required Check.text m "project_path").and
        ((Check.required Check.moment m "scanned_at").and
          ((Check.required (Check.named Grade.ofName? .notGrade) m "score").and
            ((Check.required (Check.integerBetween 0 100) m "score_numeric").and
              ((Check.withDefault [] (Check.list Finding.check) m "findings").and
                ((Check.withDefault {} Summary.check m "summary").and
                  (Check.withDefault 0 (Check.integerFrom 0) m "duration_ms")))))))).map
      fun (project, projectPath, scannedAt, grade, points, findings, summary, durationMs) =>
        { project := project, projectPath := projectPath, scannedAt := scannedAt, grade := grade,
          points := points.toNat, findings := findings, summary := summary,
          durationMs := durationMs.toNat }

/-- The text of a stored report. -/
def render (r : Report) : String :=
  r.toJson.render .plain

/-- The report that a text holds. -/
def ofText (s : List Char) : Checked Report :=
  Checked.ofText check s

end Report

end WorkspaceAudit
