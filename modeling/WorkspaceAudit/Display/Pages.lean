import WorkspaceAudit.Display.Terminal
import WorkspaceAudit.Report.Basic
import WorkspaceAudit.Time.Iso

/-!
# Pages on the terminal

- `scanPage`: the outcome of one scan, with its most severe findings;
- `summaryPage`: one row for each of several scans;
- `overviewTable`: one row for each project of the workspace;
- `reportPage`: all findings of a report, the most severe first.

A number that cannot be written ends a page where it would be written: at the item that it is in,
or at the first item if what it is in is made before anything is shown.
-/

namespace WorkspaceAudit

def Severity.style : Severity → String
  | .critical => "bold white on red"
  | .high => "bold red"
  | .medium => "bold yellow"
  | .low => "cyan"
  | .info => "dim"

def Grade.style : Grade → String
  | .a => "bold black on green"
  | .b => "bold green"
  | .c => "bold yellow"
  | .d => "bold red"
  | .f => "bold white on red"

namespace Display

/-- The label of a severity. -/
def severityLabel (severity : Severity) : Styled :=
  .of (" " ++ severity.name ++ " ") severity.style

/-- The label of a grade by its letter; an unknown letter has a neutral style. -/
def letterLabel (letter : String) : Styled :=
  .of (" " ++ letter ++ " ") (((Grade.ofName? letter).map Grade.style).getD "bold white")

/-- The label of a grade. -/
def gradeLabel (grade : Grade) : Styled := letterLabel grade.name

/-- A number as text. -/
def number (n : Int) : String := Text.Decimal.ofInt n

/-- The points of a report out of a hundred. -/
def pointsText (r : Report) : String :=
  " (" ++ Text.Decimal.ofNat r.points ++ "/100)"

/-- The duration of a scan. -/
def durationText (r : Report) : String :=
  Text.Decimal.ofNat r.durationMs ++ "ms"

/-- The first characters of a text. -/
def cut (n : Nat) (s : String) : String :=
  String.ofList (s.toList.take n)

/-- A text, or a dash if it is empty. -/
def orDash (s : String) : String := if s == "" then "-" else s

/-- The title, place and advice of a finding. -/
def findingCells (f : Finding) (advice : String) : List Cell :=
  [.text f.title, .text (f.location.textOr "-"), .text (orDash advice)]

/-- The columns for the title, place and advice of findings. -/
def findingColumns : List String := ["Finding", "Location", "Remediation"]

/-- The row of a finding among others of any severity. -/
def severeRow (f : Finding) : List Cell :=
  .styled (severityLabel f.severity) :: findingCells f (cut 40 (f.advice?.getD ""))

/-- The row of a finding among others of the same severity. -/
def plainRow (f : Finding) : List Cell :=
  findingCells f (f.advice?.getD (cut 45 f.description))

/-- The severities that the pills show. -/
def pillSeverities : List Severity := [.critical, .high, .medium, .low]

/-- The count of a severity as a pill, which is grey for zero. -/
def pill (r : Report) (severity : Severity) : List Styled :=
  let count := r.summary.count severity
  [.of (" " ++ number count ++ " " ++ severity.name ++ " ")
      (if count == 0 then "dim" else severity.style),
   .of "  " ""]

/-- The counts that are shown of a report. -/
def shownCounts (r : Report) : List Int := pillSeverities.map r.summary.count

/-- The counts of a report as a row of pills. -/
def pills (r : Report) : Styled :=
  .concat (.of "  " "" :: pillSeverities.flatMap (pill r))

/-- The project, score and duration of a scan. -/
def scanHeader (r : Report) : Styled :=
  .concat
    (Styled.part r.project "bold" ++
      [.of "  Score: " "", gradeLabel r.grade, .of (pointsText r) "dim",
       .of ("  " ++ durationText r) "dim"])

/-- The findings that the page of a scan lists. -/
def severeFindings (r : Report) : List Finding :=
  r.findings.filter fun f => f.severity == .critical || f.severity == .high

/-- The line about findings of medium and low severity, if there are no others. -/
def mildLine (r : Report) : String :=
  Markup.framed "dim" ("  " ++ number r.summary.medium ++ " medium, " ++ number r.summary.low ++
    " low severity findings. Run: securedev report " ++ r.project)

/-- The line about findings that the page of a scan does not list. -/
def remainingLine (r : Report) (remaining : Nat) : String :=
  Markup.framed "dim" ("  + " ++ Text.Decimal.ofNat remaining ++
    " more (MEDIUM/LOW). Run: securedev report " ++ r.project)

/-- The table of the findings that the page of a scan lists. -/
def severeTable (severe : List Finding) : Table where
  columns := "Severity" :: findingColumns
  rows := severe.map severeRow

/-- The findings of a scan as its page shows them. -/
def scanFindings (r : Report) : Page :=
  let severe := severeFindings r
  if r.findings.isEmpty then Page.of [.markup (Markup.framed "green" "  No issues found")]
  else if severe.isEmpty then Page.of [.markup (mildLine r)]
  else
    let remaining := r.findings.length - severe.length
    withNumbers (Finding.lineNumbers severe) (.table (severeTable severe)) ::
      Page.of (if 0 < remaining then [.markup (remainingLine r remaining)] else [])

/-- The outcome of one scan. Its header is made before anything is shown. -/
def scanPage (r : Report) : Page :=
  [withNumbers [(r.durationMs : Int)] .blank,
   .ok (.panel (scanHeader r)),
   withNumbers (shownCounts r) (.styled (pills r))] ++ scanFindings r ++ [.ok .blank]

/-- The counts that tables show. -/
def countCells (r : Report) : List Cell :=
  (shownCounts r).map fun count => .text (number count)

/-- The row of a scan in the summary. -/
def summaryRow (r : Report) : List Cell :=
  [.text r.project, .styled (gradeLabel r.grade)] ++ countCells r ++
    [.text (durationText r)]

/-- The count of a severity in all reports. -/
def total (reports : List Report) (severity : Severity) : Int :=
  reports.foldr (fun report rest => report.summary.count severity + rest) 0

/-- The numbers in the rows of the summary. -/
def summaryNumbers (reports : List Report) : List Int :=
  reports.flatMap fun r => (r.durationMs : Int) :: shownCounts r

/-- The number in the last line of the summary. -/
def leadingTotal (reports : List Report) : Int :=
  let critical := total reports .critical
  if critical != 0 then critical else total reports .high

/-- The last line of the summary. -/
def summaryMessage (reports : List Report) : String :=
  let critical := total reports .critical
  let high := total reports .high
  if critical != 0 then
    Markup.marked "bold white on red"
      ("  " ++ number critical ++ " critical issue(s) require immediate attention")
  else if high != 0 then
    Markup.marked "bold red" ("  " ++ number high ++ " high severity issue(s) found")
  else
    Markup.framed "green" ("  All " ++ Text.Decimal.ofNat reports.length ++ " projects clean")

/-- The table of the summary. -/
def summaryTable (reports : List Report) : Table where
  title := some "Summary"
  columns := ["Project", "Score", "C", "H", "M", "L", "Time"]
  rows := reports.map summaryRow

/-- One row for each scan, if there are several. The rows are made before anything is shown. -/
def summaryPage (reports : List Report) : Page :=
  if reports.length ≤ 1 then []
  else
    [withNumbers (summaryNumbers reports) .blank,
     .ok (.table (summaryTable reports)),
     withNumbers [leadingTotal reports] (.markup (summaryMessage reports)),
     .ok .blank]

/-- How long ago an instant was, in whole days. -/
def ageText (earlier later : Int) : String :=
  let days := (later - earlier) / Moment.dayMicros
  if days ≤ 0 then "today" else number days ++ "d ago"

/-- How long ago a scan was, in whole days. -/
def scanAge (scannedAt now : Moment) : String :=
  ageText scannedAt.instant now.instant

/-- How long ago a scan was on a clock, whose offset has to be known. -/
def scanAgeOn (scannedAt now : Iso) : Except Fault String :=
  if now.offset.isNone then .error .wrongKind else .ok (ageText scannedAt.instant now.instant)

/-- The lines above the overview of a workspace. -/
def overviewHeader (projects : Nat) : List Printed :=
  [.blank,
   .markup (Markup.framed "bold" ("  Security Overview  -  " ++ Text.Decimal.ofNat projects ++
    " projects"))]

/-- A row of the overview of a workspace. -/
structure OverviewRow where
  isScanned : Bool
  cells : List Cell
  deriving Repr, DecidableEq

/-- The row of a project with its last report, if there is one. Only a report needs the time of
day. -/
def overviewRow (now : Except Fault Moment) (name : String) (report : Option Report) :
    Except Fault OverviewRow :=
  match report with
  | none =>
    .ok
      { isScanned := false
        cells :=
          .styled (.of name "dim") :: (["?", "-", "-", "-", "-", "not scanned"].map .text) }
  | some r => do
    let counts ← withNumbers (shownCounts r) (countCells r)
    let now ← now
    return {
      isScanned := true
      cells := [.text name, .styled (gradeLabel r.grade)] ++ counts ++
        [.text (scanAge r.scannedAt now)] }

/-- The overview of a workspace. -/
def overviewTable (rows : List OverviewRow) : List Printed :=
  [.table
    { columns := ["Project", "Score", "C", "H", "M", "L", "Last Scan"]
      rows := rows.map OverviewRow.cells },
   .markup (Markup.framed "dim" ("  " ++
    Text.Decimal.ofNat (rows.countP OverviewRow.isScanned) ++ "/" ++
    Text.Decimal.ofNat rows.length ++ " scanned  -  securedev scan --all")),
   .blank]

/-- The heading of the findings of a severity. -/
def groupHeading (severity : Severity) (count : Nat) : Styled :=
  .concat
    [.of "  " "", severityLabel severity,
     .of ("  " ++ Text.Decimal.ofNat count ++ " finding" ++ (if 1 < count then "s" else ""))
      "bold"]

/-- The table of the findings of a severity. -/
def groupTable (findings : List Finding) : Table where
  columns := findingColumns
  rows := findings.map plainRow

/-- The findings of a severity, if there are any. -/
def group (r : Report) (severity : Severity) : Page :=
  let findings := r.ofSeverity severity
  if findings.isEmpty then []
  else
    [.ok (.styled (groupHeading severity findings.length)),
     withNumbers (Finding.lineNumbers findings) (.table (groupTable findings))]

/-- The lines above the findings of a report. -/
def reportHeader (r : Report) : List Printed :=
  [.blank,
   .markup (Markup.framed "bold" ("  Security Report  -  " ++ r.project)),
   .styled (.concat
    [.of ("  Scanned: " ++ r.scannedAt.shown ++ "  Score: ") "", gradeLabel r.grade,
     .of (pointsText r) ""]),
   .blank]

/-- All findings of a report, the most severe first. -/
def reportPage (r : Report) : Page :=
  Page.of (reportHeader r) ++ Severity.all.flatMap (group r)

end Display

end WorkspaceAudit
