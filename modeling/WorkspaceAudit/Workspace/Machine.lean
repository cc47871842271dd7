import WorkspaceAudit.Display.Terminal
import WorkspaceAudit.Files.Disk
import WorkspaceAudit.Number.Reading
import WorkspaceAudit.Time.Moment

/-!
# The machine

All that the outside world contributes: the disk, the environment, the time of day, a stopwatch,
the tool that audits dependencies and the terminal. An `Action` may change the machine; what it has
changed stays changed if it ends in a fault.
-/

namespace WorkspaceAudit

/-- What happens when the audit of dependencies is run. -/
inductive AuditTool where
  | missing
  | timesOut
  | cannotStart
  | prints (output : String)
  deriving Repr, DecidableEq

/-- What a clock shows. -/
structure Clock where
  /-- The microseconds since the start of 1970 in universal time. -/
  instant : Int
  /-- The clock tells its zone. -/
  hasZone : Bool := true
  deriving Repr, DecidableEq

structure Machine where
  disk : Disk
  /-- The variables of the environment. -/
  environment : List (String × String)
  clock : Clock
  /-- The readings of the stopwatch in seconds, which come round again. -/
  readings : List Reading
  /-- How many readings have been taken. -/
  taken : Nat := 0
  auditTool : AuditTool := .missing
  terminal : Terminal := .lenient
  /-- The home folders of the accounts; the own account is the one without a name. -/
  accounts : List (String × String) := []

/-- Something that is done on a machine. -/
abbrev Action (α : Type) := ExceptT Fault (StateM Machine) α

namespace Action

/-- Looks at the machine. -/
def inspect {α : Type} (f : Machine → Except Fault α) : Action α := do
  match f (← get) with
  | .ok a => return a
  | .error fault => throw fault

/-- Changes the disk. -/
def change (f : Disk → Except Fault Disk) : Action Unit := do
  let m ← get
  match f m.disk with
  | .ok disk => set { m with disk := disk }
  | .error fault => throw fault

/-- Makes a folder and the folders on the way to it. -/
def makeFolders (p : Path) : Action Unit := do
  let m ← get
  let (outcome, disk) := m.disk.makeFolders p
  set { m with disk := disk }
  match outcome with
  | .ok _ => return
  | .error fault => throw fault

/-- The next reading of the stopwatch. -/
def readStopwatch : Action Reading := do
  let m ← get
  set { m with taken := m.taken + 1 }
  return (m.readings[m.taken % m.readings.length]?).getD .zero

end Action

namespace Machine

/-- The time of day as a moment of universal time. The zone of a clock that does not tell it is
looked for on the day before, too, which has to be in the calendar. -/
def now (m : Machine) : Except Fault Moment :=
  match Moment.ofInstant? m.clock.instant with
  | none => .error .outsideCalendar
  | some moment =>
    let before := Moment.ofInstant? (m.clock.instant - Moment.dayMicros)
    if m.clock.hasZone || before.isSome then .ok moment else .error .firstDay

/-- The value of a variable of the environment, unless it is missing or empty. -/
def setting? (m : Machine) (name : String) : Option String :=
  (m.environment.lookup name).filter (· != "")

/-- The folder of the text of a home folder: the root if it holds nothing but slashes. One that
begins with a tilde again is none. -/
def homeOfText (text : String) : Except Fault Path :=
  if text.toList.all (· == '/') then .ok ⟨.root, []⟩
  else if text.toList.head? == some '~' then .error .noHome
  else .ok (.ofString text)

/-- The home folder of an account. -/
def accountHome (m : Machine) (name : String) : Except Fault Path :=
  match m.accounts.lookup name with
  | some text => homeOfText text
  | none => .error .noHome

/-- The own home folder: that of the environment, or else that of the account. -/
def home (m : Machine) : Except Fault Path :=
  match m.environment.lookup "HOME" with
  | some text => homeOfText text
  | none => m.accountHome ""

/-- The path with the home folder for a tilde at its start. A tilde with a name after it is the
home folder of the account of that name. -/
def expandHome (m : Machine) (p : Path) : Except Fault Path :=
  match p.anchor, p.names with
  | .here, name :: rest =>
    match name.toList with
    | ['~'] => m.home.map fun home => home.extend rest
    | '~' :: account => (m.accountHome (String.ofList account)).map fun home => home.extend rest
    | _ => .ok p
  | _, _ => .ok p

end Machine

end WorkspaceAudit
