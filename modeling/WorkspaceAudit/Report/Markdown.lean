import WorkspaceAudit.Files.Fault
import WorkspaceAudit.Report.Basic
import WorkspaceAudit.Text.Lines
import WorkspaceAudit.Time.Text

/-!
# The security page of a project

A page of Markdown with the counts of a report and its findings from medium severity up.
-/

namespace WorkspaceAudit.Report

/-- Where a finding is, as the page shows it. -/
def placeOf (f : Finding) : String := f.location.textOr "n/a"

/-- The title, the score and the table of counts. -/
def pageHeader (r : Report) : List String :=
  ["# Security Status - " ++ r.project,
   "",
   "> Last scanned: " ++ r.scannedAt.date.text ++ " by securedev",
   "> Score: **" ++ r.grade.name ++ "** (" ++ Text.Decimal.ofNat r.points ++ "/100)",
   "",
   "## Summary",
   "",
   "| Severity | Count |",
   "|----------|-------|"] ++
  Severity.all.map (fun severity =>
    "| " ++ severity.name ++ " | " ++ Text.Decimal.ofInt (r.summary.count severity) ++ " |") ++
  [""]

/-- A section of the page, which is left out if it has no findings. -/
def pageSection (title : String) (findings : List Finding) (lines : List String) : List String :=
  if findings.isEmpty then [] else [title, ""] ++ lines

/-- A critical finding on the page. -/
def criticalLines (f : Finding) : List String :=
  ["### " ++ f.title,
   "- **File:** " ++ placeOf f,
   "- **Description:** " ++ f.description,
   "- **Remediation:** " ++ f.advice?.getD "See security documentation",
   ""]

/-- A finding of high severity on the page. -/
def highLine (f : Finding) : String :=
  "- **" ++ f.title ++ "** - " ++ placeOf f ++ " - " ++ f.advice?.getD f.description

/-- A finding of medium severity on the page. -/
def mediumLine (f : Finding) : String :=
  "- **" ++ f.title ++ "** - " ++ placeOf f

/-- The lines of the page. -/
def pageLines (r : Report) : List String :=
  let critical := r.ofSeverity .critical
  let high := r.ofSeverity .high
  let medium := r.ofSeverity .medium
  r.pageHeader ++
    pageSection "## Critical Issues (MUST FIX)" critical (critical.flatMap criticalLines) ++
    pageSection "## High Severity" high (high.map highLine ++ [""]) ++
    pageSection "## Medium Severity" medium (medium.map mediumLine ++ [""]) ++
    ["---", "*Regenerate: `securedev scan " ++ r.project ++ " --update-security-md`*", ""]

/-- The numbers on the page: all counts, and the lines of the findings that it lists. -/
def pageNumbers (r : Report) : List Int :=
  Severity.all.map r.summary.count ++
    [.critical, .high, .medium].flatMap fun severity =>
      Finding.lineNumbers (r.ofSeverity severity)

/-- The page. -/
def markdown (r : Report) : Except Fault String :=
  withNumbers r.pageNumbers (Text.join "\n" r.pageLines)

end WorkspaceAudit.Report
