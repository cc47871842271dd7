import WorkspaceAudit.Text.Word
import WorkspaceAudit.Text.Digit
import WorkspaceAudit.Text.Blank
import WorkspaceAudit.Text.Lowercase
import WorkspaceAudit.Text.Lines
import WorkspaceAudit.Text.Utf8
import WorkspaceAudit.Text.Quoted
import WorkspaceAudit.Text.Order
import WorkspaceAudit.Number.Shortest
import WorkspaceAudit.Pattern.Search
import WorkspaceAudit.Pattern.Build
import WorkspaceAudit.Report.Score
import WorkspaceAudit.Rule.Secrets
import WorkspaceAudit.Rule.Insecure
import WorkspaceAudit.Scan.Content
import WorkspaceAudit.Scan.Routes
import WorkspaceAudit.Ignore.Rules
import WorkspaceAudit.Json.Foreign
import WorkspaceAudit.Json.Parser
import WorkspaceAudit.Json.Printer
import WorkspaceAudit.Json.Check
import WorkspaceAudit.Time.Iso
import WorkspaceAudit.Report.Codec
import WorkspaceAudit.Report.Markdown
import WorkspaceAudit.Files.Walk
import WorkspaceAudit.Scan.Project
import WorkspaceAudit.Report.Store
import WorkspaceAudit.Workspace.Discovery
import WorkspaceAudit.Command.Run
import WorkspaceAudit.Main
import WorkspaceAudit.Proofs.Pattern.Ends
import WorkspaceAudit.Proofs.Pattern.Spans
import WorkspaceAudit.Proofs.Pattern.Hits
import WorkspaceAudit.Proofs.Pattern.Expression
import WorkspaceAudit.Proofs.Ignore.Meaning
import WorkspaceAudit.Proofs.Ignore.Expression
import WorkspaceAudit.Proofs.Ignore.Rules
import WorkspaceAudit.Proofs.Files.Links
import WorkspaceAudit.Proofs.Files.Collecting
import WorkspaceAudit.Proofs.Scan.Survivors
import WorkspaceAudit.Proofs.Scan.Pruning
import WorkspaceAudit.Proofs.Text.Located
import WorkspaceAudit.Proofs.Scan.Suppression
import WorkspaceAudit.Proofs.Scan.Firing
import WorkspaceAudit.Proofs.Text.Decimal
import WorkspaceAudit.Proofs.Json.Steps
import WorkspaceAudit.Proofs.Json.RoundTrip
import WorkspaceAudit.Proofs.Json.Reading
import WorkspaceAudit.Proofs.Json.Checking
import WorkspaceAudit.Proofs.Time.Text
import WorkspaceAudit.Proofs.Report.RoundTrip
import WorkspaceAudit.Proofs.Text.Utf8
import WorkspaceAudit.Proofs.Files.Writing
import WorkspaceAudit.Proofs.Report.Names
import WorkspaceAudit.Proofs.Workspace.Actions
import WorkspaceAudit.Proofs.Report.Store
import WorkspaceAudit.Proofs.Workspace.Failing
import WorkspaceAudit.Proofs.Command.Guard
import WorkspaceAudit.Proofs.Scan.Merging
import WorkspaceAudit.Proofs.Report.Score
import WorkspaceAudit.Proofs.Scan.Fixtures
import WorkspaceAudit.Proofs.Number.Rounding
import WorkspaceAudit.Proofs.Scan.Consistency
import WorkspaceAudit.Proofs.Report.Usable
import WorkspaceAudit.Proofs.Scan.Secrecy
import WorkspaceAudit.Proofs.Report.Worsening
import WorkspaceAudit.Proofs.Files.Relisting
import WorkspaceAudit.Proofs.Files.Walking
import WorkspaceAudit.Proofs.Scan.Totality
import WorkspaceAudit.Proofs.Scan.Ordering
import WorkspaceAudit.Proofs.Scan.Routes
import WorkspaceAudit.Proofs.Files.Growing
import WorkspaceAudit.Proofs.Workspace.Settings
import WorkspaceAudit.Proofs.Command.Configure
import WorkspaceAudit.Proofs.Files.Altering
import WorkspaceAudit.Proofs.Files.Settling
import WorkspaceAudit.Proofs.Workspace.Altering
import WorkspaceAudit.Proofs.Command.Footprint
import WorkspaceAudit.Proofs.Files.Asking
import WorkspaceAudit.Proofs.Scan.Auditing
import WorkspaceAudit.Proofs.Scan.Unread
import WorkspaceAudit.Proofs.Workspace.Projects
import WorkspaceAudit.Proofs.Command.Listing
import WorkspaceAudit.Proofs.Command.Reporting
import WorkspaceAudit.Proofs.Command.Rescanning
import WorkspaceAudit.Proofs.Scan.Windows
import WorkspaceAudit.Proofs.Scan.Pragmas
import WorkspaceAudit.Proofs.Scan.Loopback
import WorkspaceAudit.Proofs.Workspace.Isolation
import WorkspaceAudit.Proofs.Json.Readers
import WorkspaceAudit.Proofs.Json.LineEnds
import WorkspaceAudit.Proofs.Workspace.Loading
import WorkspaceAudit.Proofs.Scan.Dependencies
import WorkspaceAudit.Proofs.Command.Attempts
import WorkspaceAudit.Proofs.Pattern.Checks
import WorkspaceAudit.Proofs.Scan.Assignments
import WorkspaceAudit.Proofs.Scan.Reordering
import WorkspaceAudit.Proofs.Display.Grouping
import WorkspaceAudit.Proofs.Time.Calendar
import WorkspaceAudit.Proofs.Display.Ages
import WorkspaceAudit.Proofs.Workspace.Relisting
import WorkspaceAudit.Proofs.Text.Offsets
