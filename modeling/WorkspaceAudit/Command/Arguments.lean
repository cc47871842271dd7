/-!
# Reading the command line

The options of the program stand in front of the command; those of a command may stand between its
operands. An option that takes a value takes the next argument whatever it looks like, or what
follows an equals sign. After two hyphens everything is an operand.
-/

namespace WorkspaceAudit

/-- What the command line asks for. -/
inductive Invocation where
  /-- Scan a project, or all of them. -/
  | scan (project : Option String) (all updatePage json : Bool)
  /-- List the projects with their last score. -/
  | list
  /-- Show the last report of a project. -/
  | report (project : String) (json : Bool)
  /-- Check a project before or after a run. -/
  | guard (project : String) (before : Bool) (blockOn : Option String)
  /-- Show or change the settings. -/
  | config (workspace blockOn : Option String) («show» : Bool)
  deriving Repr, DecidableEq

namespace Arguments

/-- The options of a command: their names, and whether they take a value. -/
abbrev Options := List (String × Bool)

/-- The options that were given, with their values, and the operands. -/
structure Given where
  options : List (String × String) := []
  operands : List String := []
  deriving Repr, DecidableEq

namespace Given

/-- The option was given. -/
def has (g : Given) (name : String) : Bool :=
  g.options.any (·.1 == name)

/-- The last value that was given to an option. -/
def value? (g : Given) (name : String) : Option String :=
  g.options.reverse.lookup name

/-- One more option in front. -/
def withOption (g : Given) (name value : String) : Given :=
  { g with options := (name, value) :: g.options }

/-- One more operand in front. -/
def withOperand (g : Given) (operand : String) : Given :=
  { g with operands := operand :: g.operands }

end Given

/-- The argument begins with a hyphen and is more than that. -/
def looksLikeOption (arg : String) : Bool :=
  arg.toList.head? == some '-' && arg != "-"

/-- The name of an option, and the value after an equals sign. -/
def splitValue (arg : String) : String × Option String :=
  match arg.toList.span (· != '=') with
  | (name, []) => (String.ofList name, none)
  | (name, _ :: value) => (String.ofList name, some (String.ofList value))

/-- The options and operands of a command; none if an option is unknown or misused. -/
def read? (options : Options) : List String → Option Given
  | [] => some {}
  | arg :: rest =>
    if arg == "--" then some { operands := rest }
    else if looksLikeOption arg then
      match options.lookup (splitValue arg).1, (splitValue arg).2 with
      | none, _ => none
      | some false, some _ => none
      | some false, none => (read? options rest).map (·.withOption (splitValue arg).1 "")
      | some true, some value => (read? options rest).map (·.withOption (splitValue arg).1 value)
      | some true, none =>
        match rest with
        | value :: rest => (read? options rest).map (·.withOption (splitValue arg).1 value)
        | [] => none
    else (read? options rest).map (·.withOperand arg)

/-- The argument asks for more messages. -/
def isVerbose (arg : String) : Bool :=
  arg == "--verbose" ||
    match arg.toList with
    | '-' :: 'v' :: more => more.all (· == 'v')
    | _ => false

/-- The command and its arguments. -/
def command? : List String → Option (String × List String)
  | [] => none
  | arg :: rest =>
    if arg == "--" then
      match rest with
      | name :: rest => some (name, rest)
      | [] => none
    else if isVerbose arg then command? rest
    else if looksLikeOption arg then none
    else some (arg, rest)

/-- At most one operand. -/
def atMostOne? : List String → Option (Option String)
  | [] => some none
  | [operand] => some (some operand)
  | _ => none

def scan? (args : List String) : Option Invocation := do
  let given ← read? [("--all", false), ("--update-security-md", false), ("--json", false)] args
  let project ← atMostOne? given.operands
  return .scan project (given.has "--all") (given.has "--update-security-md") (given.has "--json")

def list? (args : List String) : Option Invocation := do
  let given ← read? [] args
  if given.operands.isEmpty then return .list else none

def report? (args : List String) : Option Invocation := do
  let given ← read? [("--json", false)] args
  let project ← (← atMostOne? given.operands)
  return .report project (given.has "--json")

def guard? (args : List String) : Option Invocation := do
  let given ← read?
    [("--project", true), ("--pre", false), ("--post", false), ("--block-on", true)] args
  let project ← given.value? "--project"
  if given.operands.isEmpty then
    return .guard project (given.has "--pre") (given.value? "--block-on")
  else none

def config? (args : List String) : Option Invocation := do
  let given ← read? [("--workspace", true), ("--block-on", true), ("--show", false)] args
  if given.operands.isEmpty then
    return .config (given.value? "--workspace") (given.value? "--block-on") (given.has "--show")
  else none

/-- The commands by name. -/
def commands : List (String × (List String → Option Invocation)) :=
  [("scan", scan?), ("list", list?), ("report", report?), ("guard", guard?), ("config", config?)]

end Arguments

/-- What a command line asks for; none if it cannot be understood. -/
def Invocation.ofArguments? (args : List String) : Option Invocation := do
  let (name, args) ← Arguments.command? args
  let read ← Arguments.commands.lookup name
  read args

end WorkspaceAudit
