import WorkspaceAudit.Proofs.Command.Guard
import WorkspaceAudit.Proofs.Files.Settling
import WorkspaceAudit.Proofs.Workspace.Altering

/-!
# Where commands write

- `Command.Quiet x`: the command leaves the machine as it is, however it ends.
- `Invocation.Scans m invocation p`: the projects that an invocation scans; `Invocation.Writes` and
  `Invocation.Makes`: the paths at which it writes files and makes folders, told from the machine
  before it runs.
- `Invocation.command_alters`: an invocation alters nothing else, completed or not.
- `treeAfter`: the files after calls of the program, one after the other; `exists_call_of_file`: a
  file that is not as before has been written by a call; `find?_treeAfter`: a file stays as it is if
  no call writes at a path of its name or at a link.
- `calls_alter_only`: the program writes only where it may.
-/

namespace WorkspaceAudit

/-! ## Commands that leave the machine as it is -/

namespace Command

variable {α β : Type} {x : Command α} {s t : Session}

/-- The command leaves the machine as it is, however it ends. -/
def Quiet (x : Command α) : Prop := ∀ s, (x.run s).2.machine = s.machine

theorem Quiet.bind {f : α → Command β} (hx : Quiet x) (hf : ∀ a, Quiet (f a)) :
    Quiet (x >>= f) := by
  intro s
  refine related_bind (R := fun s t : Session => t.machine = s.machine) ?_ (hx s) ?_
  · intro s t u hst htu
    exact htu.trans hst
  · intro a t _ _
    exact hf a t

theorem quiet_pure (a : α) : Quiet (pure a) := fun _ => rfl

theorem quiet_throw (halt : Halt) : Quiet (throw halt : Command α) := fun _ => rfl

theorem quiet_say (line : String) : Quiet (say line) := fun _ => rfl

theorem quiet_complain (line : String) : Quiet (complain line) := fun _ => rfl

theorem quiet_print (page : Page) : Quiet (print page) := by
  intro s
  cases hfault : (s.machine.terminal.display page).fault with
  | none => rw [print_run_ok hfault]
  | some fault => rw [print_run_error hfault]

theorem quiet_showScan (json : Bool) (r : Report) : Quiet (showScan json r) := by
  unfold showScan
  split
  · exact quiet_pure ()
  · exact quiet_print _

theorem quiet_need (outcome : Except Fault α) : Quiet (need outcome) := by
  cases outcome with
  | ok a => exact quiet_pure a
  | error fault => exact quiet_throw _

theorem quiet_showScans (json : Bool) (reports : List Report) : Quiet (showScans json reports) := by
  unfold showScans
  split
  · exact (quiet_need _).bind fun _ => quiet_say _
  · exact quiet_print _

theorem quiet_level? (value : Option String) : Quiet (level? value) := by
  unfold level?
  split
  · exact quiet_pure _
  split
  · exact quiet_pure _
  · exact quiet_throw _

theorem quiet_look (f : Machine → Except Fault α) : Quiet (look f) := by
  intro s
  cases hf : f s.machine with
  | ok a => rw [look_run_ok hf]
  | error fault => rw [look_run_error hf]

theorem quiet_discover (config : Config) : Quiet (discover config) := quiet_look _

theorem quiet_forM_complain (lines : List String) : Quiet (lines.forM complain) := by
  induction lines with
  | nil => exact quiet_pure _
  | cons line lines ih => exact (quiet_complain line).bind fun _ => ih

theorem quiet_mapM {f : α → Command β} (hf : ∀ a, Quiet (f a)) (as : List α) :
    Quiet (as.mapM f) := by
  induction as with
  | nil => exact quiet_pure _
  | cons a as ih =>
    rw [List.mapM_cons]
    exact (hf a).bind fun _ => ih.bind fun _ => quiet_pure _

theorem quiet_listProjects : Quiet listProjects := by
  refine (quiet_look _).bind fun config => (quiet_discover config).bind fun projects => ?_
  split
  · exact quiet_say _
  · refine (quiet_print _).bind fun _ => (quiet_mapM (fun p => ?_) projects).bind fun rows => ?_
    · exact (quiet_look _).bind fun report => quiet_look _
    · exact quiet_print _

theorem quiet_showReport (project : String) (json : Bool) : Quiet (showReport project json) := by
  refine (quiet_look _).bind fun report => ?_
  split
  · exact quiet_say _
  split
  · exact quiet_say _
  · exact quiet_print _

theorem quiet_configure_show (workspace blockOn : Option String) :
    Quiet (configure workspace blockOn true) :=
  (quiet_look _).bind fun _ => quiet_say _

/-! ## Steps that alter the machine -/

variable {written made : Path → Prop} {action : Action α}

/-- The steps of a command. -/
theorem alters_bind {f : α → Command β}
    (hx : s.machine.Alters (x.run s).2.machine written made)
    (hf : ∀ a t, x.run s = (.ok a, t) → s.machine.Alters t.machine written made →
      t.machine.Alters ((f a).run t).2.machine written made) :
    s.machine.Alters ((x >>= f).run s).2.machine written made :=
  related_bind (R := fun s t : Session => s.machine.Alters t.machine written made) .trans hx hf

theorem Quiet.alters (hx : Quiet x) (s : Session) (written made : Path → Prop) :
    s.machine.Alters (x.run s).2.machine written made := by
  rw [hx s]
  exact .refl s.machine written made

/-- A step that leaves the machine as it is, with others after it. -/
theorem Quiet.alters_bind {f : α → Command β} (hx : Quiet x)
    (hf : ∀ a t, x.run s = (.ok a, t) → t.machine = s.machine →
      t.machine.Alters ((f a).run t).2.machine written made) :
    s.machine.Alters ((x >>= f).run s).2.machine written made := by
  refine Command.alters_bind (hx.alters s written made) fun a t hrun _ => hf a t hrun ?_
  have hmachine := hx s
  rwa [hrun] at hmachine

theorem of_look_run {f : Machine → Except Fault α} {a : α} (h : (look f).run s = (.ok a, t)) :
    f s.machine = .ok a := by
  cases hf : f s.machine with
  | ok a' =>
    rw [look_run_ok hf] at h
    cases h
    rfl
  | error fault =>
    rw [look_run_error hf] at h
    cases h

theorem attempt_run_eq (action : Action α) (s : Session) : (attempt action).run s =
    (.ok (action.run s.machine).1, { s with machine := (action.run s.machine).2 }) :=
  attempt_run rfl

theorem of_attempt_run {outcome : Except Fault α} (h : (attempt action).run s = (.ok outcome, t)) :
    action.run s.machine = (outcome, t.machine) := by
  rw [attempt_run_eq] at h
  cases h
  rfl

theorem alters_attempt (h : s.machine.Alters (action.run s.machine).2 written made) :
    s.machine.Alters ((attempt action).run s).2.machine written made := by
  rw [attempt_run_eq]
  exact h

theorem alters_perform (h : s.machine.Alters (action.run s.machine).2 written made) :
    s.machine.Alters ((perform action).run s).2.machine written made := by
  rcases hrun : action.run s.machine with ⟨fault | a, m'⟩
  · rw [perform_run_error hrun]
    rw [hrun] at h
    exact h
  · rw [perform_run_ok hrun]
    rw [hrun] at h
    exact h

/-! ## Scans -/

section Scans

variable {m : Machine} {scanners : List ProjectScanner} {p : Project} {page json : Bool}

/-- The report of a scan is stored where the machine `m` says, which has been altered since. -/
theorem alters_save {r : Report} {m' m'' : Machine} (hm : m.Alters m' written made)
    (hscan : (scanProject scanners (.ofString p.path)).run m' = (.ok r, m''))
    (hs : m.Alters s.machine written made)
    (hwritten : ∀ q, m.IsReportPath p q → written q)
    (hmade : ∀ folder q, m.reportsFolder = .ok folder → q.IsOnWay folder → made q) :
    s.machine.Alters ((perform r.save).run s).2.machine written made := by
  obtain ⟨root, now, hroot, hnow, hproject, htime⟩ := about_of_scanProject hscan
  rw [hm.disk.settled_eq] at hroot
  rw [hm.now_eq] at hnow
  refine alters_perform ((r.alters_save s.machine).mono ?_ ?_)
  · rintro q ⟨folder, hfolder, rfl⟩
    rw [hs.reportsFolder_eq] at hfolder
    exact hwritten _ ⟨folder, root, now, r, hfolder, hroot, hnow, hproject, htime, rfl⟩
  · rintro q ⟨folder, hfolder, hq⟩
    rw [hs.reportsFolder_eq] at hfolder
    exact hmade folder q hfolder hq

theorem alters_scanOne (hm : m.Alters s.machine written made)
    (hreport : ∀ q, m.IsReportPath p q → written q)
    (hpage : page = true → written ((Path.ofString p.path).below "SECURITY.md"))
    (hmade : ∀ folder q, m.reportsFolder = .ok folder → q.IsOnWay folder → made q) :
    s.machine.Alters ((scanOne (scanProject scanners) page json p).run s).2.machine
      written made := by
  unfold scanOne
  refine alters_bind (alters_attempt (scanProject_alters _ _ _ _ _)) fun outcome t hrun ht => ?_
  have hscan := of_attempt_run hrun
  cases outcome with
  | error fault => exact ((quiet_complain _).bind fun _ => quiet_pure _).alters t written made
  | ok r =>
    refine alters_bind (alters_save hm hscan (hm.trans ht) hreport hmade) ?_
    intro _ u _ _
    have hrest : Quiet (showScan json r >>= fun _ => pure (some r)) :=
      (quiet_showScan json r).bind fun _ => quiet_pure _
    dsimp only
    split
    · rename_i hupdate
      refine alters_bind (alters_perform ?_) fun _ v _ _ => hrest.alters v written made
      refine (r.alters_savePage (.ofString p.path) u.machine).mono ?_ fun _ => False.elim
      rintro q rfl
      exact hpage hupdate
    · exact hrest.alters u written made

/-- **Projects are scanned one after the other**, and each is written about where the machine `m`
from the start says: the alterations for those before it leave its paths the same. -/
theorem alters_scanEach {projects : List Project} (hm : m.Alters s.machine written made)
    (hreport : ∀ p ∈ projects, ∀ q, m.IsReportPath p q → written q)
    (hpage : page = true → ∀ p ∈ projects, written ((Path.ofString p.path).below "SECURITY.md"))
    (hmade : projects ≠ [] → ∀ folder q, m.reportsFolder = .ok folder → q.IsOnWay folder → made q) :
    s.machine.Alters ((scanEach (scanProject scanners) page json projects).run s).2.machine
      written made := by
  induction projects generalizing s with
  | nil => exact (quiet_pure _).alters s written made
  | cons p more ih =>
    unfold scanEach
    have hfirst := hmade (List.cons_ne_nil p more)
    refine alters_bind (alters_scanOne hm (hreport p List.mem_cons_self)
      (fun hupdate => hpage hupdate p List.mem_cons_self) hfirst) fun _ t _ ht => ?_
    refine alters_bind (ih (hm.trans ht) ?_ ?_ ?_) fun _ u _ _ => (quiet_pure _).alters u _ _
    · exact fun p hp => hreport p (List.mem_cons_of_mem _ hp)
    · exact fun hupdate p hp => hpage hupdate p (List.mem_cons_of_mem _ hp)
    · exact fun _ => hfirst

end Scans

end Command

/-! ## Invocations -/

namespace Invocation

variable {m m' : Machine} {p : Project} {q : Path}

/-- The projects that a scan is about: all of the workspace, or the one that is named. -/
inductive Targets (m : Machine) (config : Config) : Option String → Bool → List Project → Prop where
  | all {project : Option String} {root : Path} {projects : List Project}
      (workspace : config.workspace m = .ok root)
      (discover : Project.discover m.disk root config.excluded = .ok projects) :
      Targets m config project true projects
  | one {target : String} {p : Project}
      (find : Project.find? m config target = .ok (some p)) :
      Targets m config (some target) false [p]

/-- The invocation scans the project: one of the workspace, or the one that it names. -/
inductive Scans (m : Machine) : Invocation → Project → Prop where
  | all {project : Option String} {page json : Bool} {config : Config} {root : Path}
      {projects : List Project} {p : Project} (load : Config.load m = .ok config)
      (workspace : config.workspace m = .ok root)
      (discover : Project.discover m.disk root config.excluded = .ok projects)
      (mem : p ∈ projects) : Scans m (.scan project true page json) p
  | one {target : String} {page json : Bool} {config : Config} {p : Project}
      (load : Config.load m = .ok config) (find : Project.find? m config target = .ok (some p)) :
      Scans m (.scan (some target) false page json) p
  | guarded {target : String} {before : Bool} {blockOn : Option String} {config : Config}
      {p : Project} (load : Config.load m = .ok config)
      (find : Project.find? m config target = .ok (some p)) :
      Scans m (.guard target before blockOn) p

theorem Targets.scans {config : Config} {project : Option String} {all page json : Bool}
    {projects : List Project} (h : Targets m config project all projects)
    (hload : Config.load m = .ok config) (hp : p ∈ projects) :
    (Invocation.scan project all page json).Scans m p := by
  cases h with
  | all workspace discover => exact .all hload workspace discover hp
  | one find =>
    obtain rfl := List.mem_singleton.1 hp
    exact .one hload find

/-- The invocation writes a file at the path: the report on a project that it scans, the page of
such a project if pages are asked for, or the settings. -/
inductive Writes (m : Machine) : Invocation → Path → Prop where
  | report {invocation : Invocation} {p : Project} {q : Path} (scans : invocation.Scans m p)
      (path : m.IsReportPath p q) : Writes m invocation q
  | page {project : Option String} {all json : Bool} {p : Project}
      (scans : (Invocation.scan project all true json).Scans m p) :
      Writes m (.scan project all true json) ((Path.ofString p.path).below "SECURITY.md")
  | settings {workspace blockOn : Option String} {path : Path} (path_eq : m.configPath = .ok path) :
      Writes m (.config workspace blockOn false) path

/-- The invocation makes a folder at the path: the one of the reports, the one of the settings, or
one on the way to it. -/
inductive Makes (m : Machine) : Invocation → Path → Prop where
  | reports {invocation : Invocation} {p : Project} {folder q : Path}
      (scans : invocation.Scans m p) (folder_eq : m.reportsFolder = .ok folder)
      (onWay : q.IsOnWay folder) : Makes m invocation q
  | settings {workspace blockOn : Option String} {path q : Path} (path_eq : m.configPath = .ok path)
      (onWay : q.IsOnWay path.parent) : Makes m (.config workspace blockOn false) q

/-- The invocation is for looking only. -/
def LooksOnly : Invocation → Prop
  | .list => True
  | .report .. => True
  | .config _ _ display => display = true
  | .scan .. => False
  | .guard .. => False

open Command

variable {scanners : List ProjectScanner} {s : Session}

/-- The projects that a scan is about, if there are any. -/
theorem targets_of_scanTargets {config : Config} {project : Option String} {all : Bool}
    {projects : List Project} {t : Session}
    (h : (scanTargets config project all).run s = (.ok projects, t)) :
    projects = [] ∨ Targets s.machine config project all projects := by
  unfold scanTargets at h
  split at h
  · rename_i hall
    subst hall
    obtain ⟨root, hroot, hdiscover⟩ := exists_ok_of_bind (of_look_run h)
    exact .inr (.all hroot hdiscover)
  · rename_i hall
    rw [Bool.not_eq_true] at hall
    subst hall
    split at h
    · cases h
      exact .inl rfl
    · rename_i target htarget
      obtain ⟨rfl, -⟩ := Option.filter_eq_some_iff.1 htarget
      obtain ⟨found, u, hlook, h⟩ := exists_run_of_bind h
      have hfind := of_look_run hlook
      cases found with
      | none => cases h
      | some p =>
        cases h
        exact .inr (.one hfind)

/-- The projects that a scan is about are scanned. -/
theorem scans_of_scanTargets {config : Config} {project : Option String} {all page json : Bool}
    {projects : List Project} {t : Session} (hload : Config.load s.machine = .ok config)
    (h : (scanTargets config project all).run s = (.ok projects, t)) (hp : p ∈ projects) :
    (Invocation.scan project all page json).Scans s.machine p := by
  rcases targets_of_scanTargets h with rfl | htargets
  · cases hp
  · exact htargets.scans hload hp

theorem quiet_scanTargets (config : Config) (project : Option String) (all : Bool) :
    Quiet (scanTargets config project all) := by
  unfold scanTargets
  split
  · exact quiet_discover config
  split
  · exact quiet_pure _
  · refine (quiet_look _).bind fun found => ?_
    split
    · exact quiet_pure _
    · exact (quiet_complain _).bind fun _ => quiet_throw _

theorem scanProjects_alters (scanners : List ProjectScanner) (project : Option String)
    (all page json : Bool) (s : Session) :
    s.machine.Alters
      ((scanProjects (scanProject scanners) project all page json).run s).2.machine
      ((Invocation.scan project all page json).Writes s.machine)
      ((Invocation.scan project all page json).Makes s.machine) := by
  refine (quiet_look _).alters_bind fun config t hrun ht => ?_
  have hload := of_look_run hrun
  rw [← ht] at hload ⊢
  refine (quiet_scanTargets config project all).alters_bind fun projects u hrun' hu => ?_
  have hscans (p : Project) (hp : p ∈ projects) :
      (Invocation.scan project all page json).Scans t.machine p :=
    scans_of_scanTargets hload hrun' hp
  dsimp only
  split
  · exact ((quiet_complain _).bind fun _ => quiet_throw _).alters u _ _
  · have hsame : t.machine.Alters u.machine
        ((Invocation.scan project all page json).Writes t.machine)
        ((Invocation.scan project all page json).Makes t.machine) := by
      rw [hu]
      exact .refl _ _ _
    refine alters_bind (alters_scanEach hsame ?_ ?_ ?_) fun reports v _ _ => ?_
    · exact fun p hp q hq => .report (hscans p hp) hq
    · rintro rfl p hp
      exact .page (hscans p hp)
    · intro hne folder q hfolder hq
      obtain ⟨p, hp⟩ := List.exists_mem_of_ne_nil projects hne
      exact .reports (hscans p hp) hfolder hq
    · exact (quiet_showScans json reports).alters v _ _

theorem guard_alters (scanners : List ProjectScanner) (project : String) (before : Bool)
    (blockOn : Option String) (s : Session) :
    s.machine.Alters
      ((Command.guard (scanProject scanners) project before blockOn).run s).2.machine
      ((Invocation.guard project before blockOn).Writes s.machine)
      ((Invocation.guard project before blockOn).Makes s.machine) := by
  refine (quiet_look _).alters_bind fun config t hrun ht => ?_
  have hload := of_look_run hrun
  rw [← ht] at hload ⊢
  refine (quiet_level? blockOn).alters_bind fun level u _ hu => ?_
  rw [← hu] at hload ⊢
  refine (quiet_look _).alters_bind fun found v hrun' hv => ?_
  have hfind := of_look_run hrun'
  rw [← hv] at hload hfind ⊢
  cases found with
  -- Up to here nothing has been written. Only the scan of a project that is found stores anything.
  | none => exact ((quiet_complain _).bind fun _ => quiet_throw _).alters v _ _
  | some p =>
    have hscans : (Invocation.guard project before blockOn).Scans v.machine p :=
      .guarded hload hfind
    refine (quiet_say _).alters_bind fun _ w _ hw => ?_
    rw [← hw] at hscans ⊢
    refine alters_bind (alters_attempt (scanProject_alters _ _ _ _ _)) fun outcome x hrun'' hx => ?_
    have hscan := of_attempt_run hrun''
    cases outcome with
    | error fault => exact ((quiet_complain _).bind fun _ => quiet_throw _).alters x _ _
    | ok r =>
      refine alters_bind (alters_save (.refl _ _ _) hscan hx ?_ ?_) fun _ y _ _ => ?_
      · exact fun q hq => .report hscans hq
      · exact fun folder q hfolder hq => .reports hscans hfolder hq
      · refine Quiet.alters ?_ y _ _
        dsimp only
        split
        · exact quiet_say _
        · exact (quiet_forM_complain _).bind fun _ => quiet_throw _

theorem configure_alters (workspace blockOn : Option String) (s : Session) :
    s.machine.Alters ((configure workspace blockOn false).run s).2.machine
      ((Invocation.config workspace blockOn false).Writes s.machine)
      ((Invocation.config workspace blockOn false).Makes s.machine) := by
  refine (quiet_look _).alters_bind fun config t _ ht => ?_
  rw [← ht]
  refine (quiet_level? blockOn).alters_bind fun level u _ hu => ?_
  rw [← hu]
  refine alters_bind (alters_perform ?_) fun _ v _ _ => (quiet_say _).alters v _ _
  refine (Config.alters_save _ u.machine).mono ?_ ?_
  · exact fun q hq => .settings hq
  · rintro q ⟨path, hpath, hq⟩
    exact .settings hpath hq

/-- **An invocation alters nothing but the files that it writes and the folders that it makes**,
whether or not it is completed. -/
theorem command_alters (scanners : List ProjectScanner) (invocation : Invocation) (s : Session) :
    s.machine.Alters ((invocation.command (scanProject scanners)).run s).2.machine
      (invocation.Writes s.machine) (invocation.Makes s.machine) := by
  cases invocation with
  | scan project all page json => exact scanProjects_alters scanners project all page json s
  | list => exact quiet_listProjects.alters s _ _
  | report project json => exact (quiet_showReport project json).alters s _ _
  | guard project before blockOn => exact guard_alters scanners project before blockOn s
  | config workspace blockOn display =>
    cases display with
    | true => exact (quiet_configure_show workspace blockOn).alters s _ _
    | false => exact configure_alters workspace blockOn s

theorem quiet_of_looksOnly {invocation : Invocation} (scan : Scan) (h : invocation.LooksOnly) :
    Quiet (invocation.command scan) := by
  cases invocation with
  | scan => cases h
  | list => exact quiet_listProjects
  | report project json => exact quiet_showReport project json
  | guard => cases h
  | config workspace blockOn display =>
    obtain rfl : display = true := h
    exact quiet_configure_show workspace blockOn

end Invocation

/-! ## Runs of the program -/

theorem run_machine {scan : Scan} {args : List String} {invocation : Invocation} (m : Machine)
    (hargs : Invocation.ofArguments? args = some invocation) :
    (run scan args m).2 = ((invocation.command scan).run { machine := m }).2.machine := by
  rw [run, hargs]
  dsimp only
  rcases (invocation.command scan).run { machine := m } with ⟨halt | _, s⟩
  · cases halt <;> rfl
  · rfl

theorem run_of_misuse {scan : Scan} {args : List String} (m : Machine)
    (hargs : Invocation.ofArguments? args = none) : (run scan args m).2 = m := by
  rw [run, hargs]

/-- A call of the program: a command line, and the machine that it is run on but for its files. -/
structure Call where
  args : List String
  machine : Machine

namespace Call

variable {scanners : List ProjectScanner} {call : Call} {top : Node} {q : Path}

/-- The machine of a call, with the files of the tree. -/
def before (call : Call) (top : Node) : Machine :=
  { call.machine with disk := { call.machine.disk with top := top } }

/-- The machine after a call. -/
def after (call : Call) (scanners : List ProjectScanner) (top : Node) : Machine :=
  (run (scanProject scanners) call.args (call.before top)).2

/-- The call writes a file at the path. -/
def Writes (call : Call) (top : Node) (q : Path) : Prop :=
  ∃ invocation, Invocation.ofArguments? call.args = some invocation ∧
    invocation.Writes (call.before top) q

/-- The call makes a folder at the path. -/
def Makes (call : Call) (top : Node) (q : Path) : Prop :=
  ∃ invocation, Invocation.ofArguments? call.args = some invocation ∧
    invocation.Makes (call.before top) q

/-- **A call alters nothing but the files that it writes and the folders that it makes.** -/
theorem alters (call : Call) (scanners : List ProjectScanner) (top : Node) :
    (call.before top).Alters (call.after scanners top) (call.Writes top) (call.Makes top) := by
  unfold after
  cases hargs : Invocation.ofArguments? call.args with
  | none =>
    rw [run_of_misuse _ hargs]
    exact .refl _ _ _
  | some invocation =>
    rw [run_machine _ hargs]
    refine (invocation.command_alters scanners { machine := call.before top }).mono ?_ ?_
    · exact fun q hq => ⟨invocation, hargs, hq⟩
    · exact fun q hq => ⟨invocation, hargs, hq⟩

theorem hasWorkingFolder_after (h : (call.before top).disk.HasWorkingFolder) :
    (call.after scanners top).disk.HasWorkingFolder := by
  obtain ⟨entries, hfolder⟩ := h
  have halters := (call.alters scanners top).disk
  obtain ⟨entries', hfolder'⟩ := halters.grows.folder hfolder
  rw [← halters.here] at hfolder'
  exact ⟨entries', hfolder'⟩

/-- No path at which the call writes has the name, or is a link. -/
structure LeavesName (call : Call) (scanners : List ProjectScanner) (top : Node) (name : String) :
    Prop where
  working : (call.before top).disk.HasWorkingFolder
  notLinked : ∀ q, call.Writes top q → ¬(call.after scanners top).disk.IsLinked q
  notNamed : ∀ q, call.Writes top q → q.name ≠ name

/-- What a call does not write: a file of that name. -/
theorem LeavesName.not_leadsTo {name : String} (h : call.LeavesName scanners top name)
    (hq : call.Writes top q) {folder : List String} {bytes : List UInt8} :
    ¬(call.after scanners top).disk.LeadsTo q (folder ++ [name]) (.file bytes) := by
  intro hleads
  rcases Disk.getLast?_of_locate (hasWorkingFolder_after h.working) hleads with hname | hlinked
  · rw [List.getLast?_concat] at hname
    exact h.notNamed q hq (Option.some.inj hname).symm
  · exact h.notLinked q hq hlinked

/-- The call scans other projects than that of a report, or on another day; the settings are not
where a report of that name is, and no path at which the call writes is a link. -/
structure Spares (call : Call) (scanners : List ProjectScanner) (top : Node) (r : Report) :
    Prop where
  working : (call.before top).disk.HasWorkingFolder
  slashFree : SlashFree (call.before top).disk.here
  notLinked : ∀ q, call.Writes top q → ¬(call.after scanners top).disk.IsLinked q
  notSettings : ∀ path, (call.before top).configPath = .ok path → path.name ≠ r.fileName
  notScanned : ∀ invocation p root now, Invocation.ofArguments? call.args = some invocation →
    invocation.Scans (call.before top) p →
    (call.before top).disk.settled (.ofString p.path) = .ok root →
    (call.before top).now = .ok now → root.name = r.project → now.date ≠ r.scannedAt.date

theorem Spares.leavesName {r : Report} (h : call.Spares scanners top r) :
    call.LeavesName scanners top r.fileName := by
  refine ⟨h.working, h.notLinked, ?_⟩
  rintro q ⟨invocation, hargs, hwrites⟩ hname
  cases hwrites with
  | @report _ p _ scans path =>
    obtain ⟨folder, root, now, s, -, hroot, hnow, hproject, rfl, rfl⟩ := path
    have hslash : '/' ∉ s.project.toList := by
      rw [hproject]
      exact (Disk.slashFree_settled h.slashFree (slashFree_ofString _) hroot).name
    rw [Report.name_below_fileName hslash] at hname
    obtain ⟨hsame, hday⟩ := Report.fileName_inj hname
    exact h.notScanned invocation p root _ hargs scans hroot hnow (hproject ▸ hsame) hday
  | page scans => exact r.name_page_ne_fileName _ hname
  | settings path_eq => exact h.notSettings q path_eq hname

end Call

/-- The files after calls, one after the other. -/
def treeAfter (scanners : List ProjectScanner) (top : Node) (calls : List Call) : Node :=
  calls.foldl (fun top call => (call.after scanners top).disk.top) top

/-- **A file that is not as before has been written by a call**, at a path that leads to it. -/
theorem exists_call_of_file {scanners : List ProjectScanner} {top : Node} {calls : List Call}
    {names : List String} {bytes : List UInt8}
    (h : (treeAfter scanners top calls).find? names = some (.file bytes)) :
    top.find? names = some (.file bytes) ∨ ∃ earlier call later q,
      calls = earlier ++ call :: later ∧ call.Writes (treeAfter scanners top earlier) q ∧
      (call.after scanners (treeAfter scanners top earlier)).disk.LeadsTo q names
        (.file bytes) := by
  induction calls generalizing top with
  | nil => exact .inl h
  | cons first rest ih =>
    have hrest : (treeAfter scanners (first.after scanners top).disk.top rest).find? names =
        some (.file bytes) := h
    rcases ih hrest with hfile | ⟨earlier, call, later, q, rfl, hwrites, hleads⟩
    · refine ((first.alters scanners top).disk.files hfile).imp_right ?_
      rintro ⟨q, hwrites, hleads⟩
      exact ⟨[], first, rest, q, rfl, hwrites, hleads⟩
    · exact .inr ⟨first :: earlier, call, later, q, rfl, hwrites, hleads⟩

theorem treeAfter_grows (scanners : List ProjectScanner) (top : Node) (calls : List Call) :
    Node.Grows top (treeAfter scanners top calls) := by
  induction calls generalizing top with
  | nil => exact .refl top
  | cons call rest ih => exact (call.alters scanners top).disk.grows.trans (ih _)

/-- Calls make no links. -/
theorem link_of_treeAfter {scanners : List ProjectScanner} {top : Node} {calls : List Call}
    {names : List String} {target : String}
    (h : (treeAfter scanners top calls).find? names = some (.link target)) :
    top.find? names = some (.link target) := by
  induction calls generalizing top with
  | nil => exact h
  | cons call rest ih => exact (call.alters scanners top).disk.links (ih h)

/-- **A file stays as it is** if no call writes at a path of its name or at a link. -/
theorem find?_treeAfter {scanners : List ProjectScanner} {top : Node} {calls : List Call}
    {folder : List String} {name : String} {bytes : List UInt8}
    (hfile : top.find? (folder ++ [name]) = some (.file bytes))
    (h : ∀ earlier call later, calls = earlier ++ call :: later →
      call.LeavesName scanners (treeAfter scanners top earlier) name) :
    (treeAfter scanners top calls).find? (folder ++ [name]) = some (.file bytes) := by
  obtain ⟨bytes', hfile'⟩ := (treeAfter_grows scanners top calls).file hfile
  rcases exists_call_of_file hfile' with hsame | ⟨earlier, call, later, q, hcalls, hq, hleads⟩
  · rw [hfile', ← hsame, hfile]
  · exact absurd hleads ((h earlier call later hcalls).not_leadsTo hq)

/-- **The program writes only where it may.** A command line that cannot be understood changes
nothing. An invocation, completed or not, alters only what the paths lead to at which it writes
files and makes folders, and one for looking changes nothing. After calls of the program a file is
as before unless a call has written at a path that leads to it; so files of other names stay, and
among them reports of other projects and other days, if no path at which a call writes is a
link. -/
theorem calls_alter_only (scanners : List ProjectScanner) :
    (∀ args m,
      (Invocation.ofArguments? args = none → (run (scanProject scanners) args m).2 = m) ∧
      ∀ invocation, Invocation.ofArguments? args = some invocation →
        m.Alters (run (scanProject scanners) args m).2 (invocation.Writes m) (invocation.Makes m) ∧
        (invocation.LooksOnly → (run (scanProject scanners) args m).2 = m)) ∧
    ∀ top calls,
      (∀ names bytes, (treeAfter scanners top calls).find? names = some (.file bytes) →
        top.find? names = some (.file bytes) ∨ ∃ earlier call later q,
          calls = earlier ++ call :: later ∧ call.Writes (treeAfter scanners top earlier) q ∧
          (call.after scanners (treeAfter scanners top earlier)).disk.LeadsTo q names
            (.file bytes)) ∧
      (∀ folder name bytes, top.find? (folder ++ [name]) = some (.file bytes) →
        (∀ earlier call later, calls = earlier ++ call :: later →
          call.LeavesName scanners (treeAfter scanners top earlier) name) →
        (treeAfter scanners top calls).find? (folder ++ [name]) = some (.file bytes)) ∧
      ∀ folder (r : Report) bytes, top.find? (folder ++ [r.fileName]) = some (.file bytes) →
        (∀ earlier call later, calls = earlier ++ call :: later →
          call.Spares scanners (treeAfter scanners top earlier) r) →
        (treeAfter scanners top calls).find? (folder ++ [r.fileName]) = some (.file bytes) := by
  refine ⟨fun args m => ⟨run_of_misuse m, fun invocation hargs => ?_⟩, fun top calls => ?_⟩
  · rw [run_machine m hargs]
    exact ⟨invocation.command_alters scanners { machine := m },
      fun hlooks => Invocation.quiet_of_looksOnly _ hlooks { machine := m }⟩
  · refine ⟨fun names bytes => exists_call_of_file, fun folder name bytes => find?_treeAfter, ?_⟩
    intro folder r bytes hfile hspares
    refine find?_treeAfter hfile fun earlier call later hcalls => ?_
    exact (hspares earlier call later hcalls).leavesName

/-- A tree without links in its entries is without links. -/
theorem Node.find?_folder_ne_link {entries : List (String × Node)}
    (h : ∀ entry ∈ entries, ∀ names target, entry.2.find? names ≠ some (.link target))
    (names : List String) (target : String) :
    (Node.folder entries).find? names ≠ some (.link target) :=
  Node.link_of_folder (P := fun _ => False) h names target

theorem Node.find?_file_ne_link (bytes : List UInt8) (names : List String) (target : String) :
    (Node.file bytes).find? names ≠ some (.link target) := by
  cases names with
  | nil => rintro ⟨⟩
  | cons name rest =>
    rw [Node.find?_cons]
    rintro ⟨⟩

/-- Where there is no link before a call, there is none after it. -/
theorem Call.not_isLinked_after {scanners : List ProjectScanner} {call : Call} {top : Node}
    (h : ∀ names target, top.find? names ≠ some (.link target)) (q : Path) :
    ¬(call.after scanners top).disk.IsLinked q := by
  rintro ⟨names, target, hlocate⟩
  have hlink : (call.after scanners top).disk.top.find? names = some (.link target) :=
    Node.walk_isIn (Disk.walk_of_locate hlocate).2.2
  exact h names target ((call.alters scanners top).disk.links hlink)

/-- The files of a project and of one stored report on another. -/
def storedTree (r : Report) : Node :=
  .folder [Command.plainEntry,
    ("store", .folder [("reports", .folder [(r.fileName, .file [0x20])])])]

theorem storedTree_ne_link (r : Report) (names : List String) (target : String) :
    (storedTree r).find? names ≠ some (.link target) := by
  have hfile (name : String) (bytes : List UInt8) : ∀ entry ∈ [(name, Node.file bytes)],
      ∀ names target, entry.2.find? names ≠ some (.link target) :=
    List.forall_mem_singleton.2 (Node.find?_file_ne_link bytes)
  refine Node.find?_folder_ne_link ?_ names target
  refine List.forall_mem_cons.2 ⟨Node.find?_folder_ne_link (hfile _ _), ?_⟩
  refine List.forall_mem_singleton.2 (Node.find?_folder_ne_link ?_)
  exact List.forall_mem_singleton.2 (Node.find?_folder_ne_link (hfile _ _))

/-- A project is guarded and the settings are changed; a report on another project stays. -/
theorem calls_alter_only_stored :
    let r := Report.specimen "api" 4 0
    let calls : List Call := [⟨["guard", "--project", "p"], Command.rootMachine []⟩,
      ⟨["config", "--block-on", "high"], Command.rootMachine []⟩]
    (treeAfter ProjectScanner.standard (storedTree r) calls).find?
      ["store", "reports", r.fileName] = some (.file [0x20]) := by
  intro r calls
  have hfile : (storedTree r).find? ["store", "reports", r.fileName] = some (.file [0x20]) := by
    simp [storedTree, Command.plainEntry, Node.find?, Node.child?, List.lookup_cons]
  refine ((calls_alter_only ProjectScanner.standard).2 (storedTree r) calls).2.2
    ["store", "reports"] r [0x20] hfile ?_
  intro earlier call later hcalls
  have hargs : Invocation.ofArguments? ["guard", "--project", "p"] =
      some (.guard "p" false none) := by decide +kernel
  have hargs' : Invocation.ofArguments? ["config", "--block-on", "high"] =
      some (.config none (some "high") false) := by decide +kernel
  have hmachine : call.machine = Command.rootMachine [] := by
    have hmem : call ∈ calls := by simp [hcalls]
    simp only [calls, List.mem_cons, List.not_mem_nil, or_false] at hmem
    rcases hmem with rfl | rfl <;> rfl
  obtain ⟨args, machine⟩ := call
  subst hmachine
  -- The folder is there, is no link, and neither the settings nor a report of either call has the
  -- name of the file.
  refine ⟨?_, ?_, fun q _ => ?_, ?_, ?_⟩
  · have htop : (storedTree r).find? [] = some (storedTree r) := rfl
    exact (treeAfter_grows ProjectScanner.standard (storedTree r) earlier).folder htop
  · rintro name ⟨⟩
  · exact Call.not_isLinked_after (fun names target hlink =>
      storedTree_ne_link r names target (link_of_treeAfter hlink)) q
  · rintro path ⟨⟩
    exact Report.fileName_ne_of_short (by decide)
  · intro invocation p root now hinvocation hscans hroot hnow hname
    simp only [calls] at hcalls
    rcases earlier with _ | ⟨first, _ | ⟨second, rest⟩⟩
    · -- The guarded project is another one.
      cases hcalls
      obtain rfl := Option.some.inj (hargs.symm.trans hinvocation)
      let call : Call := ⟨["guard", "--project", "p"], Command.rootMachine []⟩
      have hload : Config.load (call.before (storedTree r)) = .ok {} := by decide +kernel
      have hfind : Project.find? (call.before (storedTree r)) {} "p" =
          .ok (some (Project.plain ⟨.root, ["p"]⟩)) := by decide +kernel
      cases hscans with
      | guarded load find =>
        obtain rfl := Except.ok.inj (hload.symm.trans load)
        obtain rfl := Option.some.inj (Except.ok.inj (hfind.symm.trans find))
        cases hroot
        exact absurd hname (by decide)
    · -- The other call writes the settings and scans nothing.
      cases hcalls
      obtain rfl := Option.some.inj (hargs'.symm.trans hinvocation)
      cases hscans
    · have hlength := congrArg List.length hcalls
      simp at hlength

/-- Three runs that write elsewhere: the report of the day is a link to an earlier report on another
project, the page of the project is a link to another of its files, or the settings are where a
report is stored. -/
theorem run_alters_others :
    (let m := Command.rootMachine [Command.plainEntry, ("store", .folder [("reports", .folder
        [("p-1970-01-01.json", .link "api-1969-12-31.json")])])]
      let other : Path := ⟨.root, ["store", "reports", "api-1969-12-31.json"]⟩
      m.disk.exists? other = .ok false ∧
        (run standardScan ["guard", "--project", "p"] m).2.disk.exists? other = .ok true) ∧
    (let m := Command.rootMachine [("p", .folder
        [("go.mod", .file []), ("SECURITY.md", .link "notes.md")])]
      let other : Path := ⟨.root, ["p", "notes.md"]⟩
      m.disk.exists? other = .ok false ∧
        (run standardScan ["scan", "p", "--update-security-md"] m).2.disk.exists? other =
          .ok true) ∧
    (let other : Path := ⟨.root, ["api-1969-12-31.json"]⟩
      let m := { Command.rootMachine [(other.name, .file [])] with
        environment := [("SECUREDEV_CONFIG", other.text)] }
      m.disk.readBytes other = .ok [] ∧
        (run standardScan ["config", "--block-on", "high"] m).2.disk.readBytes other ≠ .ok []) := by
  decide +kernel

end WorkspaceAudit
