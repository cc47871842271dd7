import WorkspaceAudit.Proofs.Command.Scanning
import WorkspaceAudit.Proofs.Display.Showing
import WorkspaceAudit.Proofs.Report.Saved

/-!
# The list of projects after a scan of them

A report is stored under the name of the folder in which the path of its project ends. The list
looks for it under the name of the entry in the workspace.

- `Scanned.savedFrom`: the reports of a scan are stored one after the other.
- `lastReport?`: the last report of a name among the results of a scan;
  `lastReport?_of_mem`: it is the one of a project if no other project has a report of that name.
- `Command.run_list`: what the list prints.
- `list_shows_scanned`: after a scan of all projects, the list shows the last report of each name.
  It is the report of the project, if the project is no link and no link leads to a folder of its
  name.
-/

namespace WorkspaceAudit

/-- The last report of a name among the results of scans. -/
def lastReport? (name : String) (results : List (Project × Report)) : Option Report :=
  (results.map Prod.snd).reverse.find? (·.project == name)

section Results

variable {p : Project} {r : Report} {results : List (Project × Report)} {name : String}

theorem mem_of_lastReport? (h : lastReport? name results = some r) :
    ∃ p, (p, r) ∈ results ∧ r.project = name := by
  have hmem := List.mem_reverse.1 (List.mem_of_find?_eq_some h)
  obtain ⟨⟨p, _⟩, hresult, rfl⟩ := List.mem_map.1 hmem
  exact ⟨p, hresult, by simpa using List.find?_some h⟩

/-- **The last report of a name is that of its project**, if no other project has one of it. -/
theorem lastReport?_of_mem (hresult : (p, r) ∈ results) (hproject : r.project = p.name)
    (hnames : (results.map fun x => x.1.name).Nodup)
    (hothers : ∀ q s, (q, s) ∈ results → s.project = p.name → q.name = p.name) :
    lastReport? p.name results = some r := by
  cases hlast : lastReport? p.name results with
  | none =>
    have hnone := List.find?_eq_none.1 hlast r
      (List.mem_reverse.2 (List.mem_map.2 ⟨(p, r), hresult, rfl⟩))
    exact absurd hproject (by simpa using hnone)
  | some s =>
    obtain ⟨q, hq, hs⟩ := mem_of_lastReport? hlast
    have heq := List.inj_on_of_nodup_map hnames hq hresult (hothers q s hq hs)
    rw [(Prod.mk.inj heq).2]

end Results

/-! ## The reports of a scan -/

section Stored

open Report

variable {m next last : Machine} {folder path project : Path} {entries : List (String × Node)}
  {start : Disk} {saved : List Report} {r : Report} {projects : List Project}
  {results : List (Project × Report)}

/-- The report of a scan can be stored where no reports are. -/
theorem storable_of_save (hscan : (standardScan project).run m = (.ok r, next))
    (hsave : r.save.run next = (.ok path, last))
    (hname : '/' ∉ r.project.toList ∧ '\x00' ∉ r.project.toList)
    (hnone : ∀ name ∈ entries.map Prod.fst, isReportName name = false) : r.Storable entries where
  valid := valid_of_save hscan hsave
  noSlash := hname.1
  noNul := hname.2
  noLink target hlookup := by
    obtain ⟨before, after, rfl, -⟩ := List.lookup_eq_some_iff.1 hlookup
    have hfileName := isReportName_of_isFileNameOf ((isFileNameOf_fileName r _).2 rfl)
    rw [hnone r.fileName (by simp)] at hfileName
    cases hfileName

/-- **The reports of a scan are stored one after the other**, and can all be stored. -/
theorem Scanned.savedFrom (h : Scanned standardScan false m projects results last)
    (hm : SavedFrom start folder entries saved m) (hstart : Provides start folder entries)
    (hnames : ∀ x ∈ results, '/' ∉ x.2.project.toList ∧ '\x00' ∉ x.2.project.toList)
    (hnone : ∀ name ∈ entries.map Prod.fst, isReportName name = false) :
    SavedFrom start folder entries (saved ++ results.map Prod.snd) last ∧
      ∀ x ∈ results, x.2.Storable entries := by
  have hscanned {m next : Machine} {p : Project} {outcome : Except Fault Report}
      {saved : List Report} (hm : SavedFrom start folder entries saved m)
      (hscan : (standardScan (.ofString p.path)).run m = (outcome, next)) :
      SavedFrom start folder entries saved next := by
    have halters : m.Alters next (fun _ => False) fun _ => False := alters_of_scan hscan
    exact hm.congr (disk_of_scan hscan) halters.reportsFolder_eq
  induction h generalizing saved with
  | done => exact ⟨by simpa using hm, by simp⟩
  | failed scan_run _ ih => exact ih (hscanned hm scan_run) hnames
  | @reported _ _ _ _ _ p r _ more results scan_run save_run page_run _ ih =>
    obtain ⟨hname, hothers⟩ := List.forall_mem_cons.1 hnames
    have hstorable := storable_of_save scan_run save_run hname hnone
    have hsaved := (hscanned hm scan_run).save hstart hstorable save_run
    rw [if_neg Bool.false_ne_true] at page_run
    rw [← page_run] at hsaved
    obtain ⟨hlast, hall⟩ := ih hsaved hothers
    rw [List.append_assoc, List.singleton_append] at hlast
    exact ⟨hlast, List.forall_mem_cons.2 ⟨hstorable, hall⟩⟩

end Stored

/-! ## What the list prints -/

namespace Command

variable {m : Machine} {config : Config} {root : Path} {projects : List Project}

theorem mapM_run {α β : Type} {f : α → Command β} {g : α → Except Fault β} {s : Session}
    {xs : List α} {ys : List β} (h : ∀ x y, g x = .ok y → (f x).run s = (.ok y, s))
    (hxs : xs.mapM g = .ok ys) : (xs.mapM f).run s = (.ok ys, s) := by
  induction xs generalizing ys with
  | nil =>
    obtain rfl := Except.ok.inj hxs
    rfl
  | cons x xs ih =>
    rw [List.mapM_cons] at hxs ⊢
    obtain ⟨y, hy, hmore⟩ := exists_ok_of_bind hxs
    obtain ⟨zs, hzs, hys⟩ := exists_ok_of_bind hmore
    obtain rfl := Except.ok.inj hys
    rw [run_bind_ok (h x y hy), run_bind_ok (ih hzs)]
    rfl

/-- **The list prints a row for each project**, with the latest report of its name, on a terminal
that reads markup. -/
theorem run_list {scan : Scan} {args : List String} {rows : List Display.OverviewRow}
    (hargs : Invocation.ofArguments? args = some .list) (hload : Config.load m = .ok config)
    (hroot : config.workspace m = .ok root)
    (hdiscover : Project.discover m.disk root config.excluded = .ok projects)
    (hne : projects ≠ [])
    (hrows : projects.mapM (fun p => do
      Display.overviewRow m.now p.name (← Report.latest? m p.name)) = .ok rows)
    (hterminal : m.terminal.ReadsMarkup)
    (htidy : ∀ row ∈ rows, ∀ s, Cell.text s ∈ row.cells → Markup.IsTidy s) :
    run scan args m = (.ended 0 "" ""
      (Display.overviewHeader projects.length ++ Display.overviewTable rows) none, m) := by
  have hprojects : (discover config).run { machine := m } = (.ok projects, { machine := m }) := by
    refine look_run_ok ?_
    rw [hroot]
    exact hdiscover
  have hheader := hterminal.display_of (Display.tidy_overviewHeader projects.length)
  have htable := hterminal.display_of (Display.tidy_overviewTable htidy)
  have hcommand : (Invocation.command scan .list).run { machine := m } =
      (.ok (), { machine := m,
                 printed := Display.overviewHeader projects.length ++
                  Display.overviewTable rows }) := by
    rw [Invocation.command, listProjects, run_bind_ok (look_run_ok (s := { machine := m }) hload),
      run_bind_ok hprojects, if_neg (by simpa using hne),
      run_bind_ok (print_run_ok (s := { machine := m }) (by rw [hheader])), hheader,
      run_bind_ok (mapM_run ?_ hrows), print_run_ok (by rw [htable]), htable]
    · rfl
    · intro p row hrow
      obtain ⟨report, hreport, hrow⟩ := exists_ok_of_bind hrow
      rw [run_bind_ok (look_run_ok (f := fun m => Report.latest? m p.name) hreport)]
      exact look_run_ok hrow
  rw [run, hargs]
  simp only [hcommand]

end Command

/-- **The results of scans are what the machine shows**: of each name, the last report is found; and
on a terminal that reads markup, the list has the row of that report for a project of that name,
which says that it has not been scanned if there is no such report. -/
structure Shows (m : Machine) (results : List (Project × Report)) : Prop where
  latest : ∀ name, Report.latest? m name = .ok (lastReport? name results)
  list : m.terminal.ReadsMarkup →
    ∀ args config root projects, Invocation.ofArguments? args = some .list →
    Config.load m = .ok config → config.workspace m = .ok root →
    Project.discover m.disk root config.excluded = .ok projects → projects ≠ [] →
    ∃ rows, projects.mapM (fun p =>
        Display.overviewRow m.now p.name (lastReport? p.name results)) = .ok rows ∧
      rows.map Display.OverviewRow.isScanned =
        projects.map (fun p => (lastReport? p.name results).isSome) ∧
      run standardScan args m = (.ended 0 "" ""
        (Display.overviewHeader projects.length ++ Display.overviewTable rows) none, m)

theorem exists_overviewRow {now : Except Fault Moment} {answer : Option Report} (name : String)
    (h : ∀ r ∈ answer, now = .ok r.scannedAt ∧ r.Writable) :
    ∃ row, Display.overviewRow now name answer = .ok row ∧ row.isScanned = answer.isSome := by
  cases answer with
  | none => exact ⟨_, rfl, rfl⟩
  | some r =>
    obtain ⟨hnow, hwritable⟩ := h r rfl
    have hcounts : withNumbers (Display.shownCounts r) (Display.countCells r) =
        .ok (Display.countCells r) := by
      refine withNumbers_of_writable _ fun n hn => ?_
      obtain ⟨severity, -, rfl⟩ := List.mem_map.1 hn
      exact hwritable.summary severity
    rw [Display.overviewRow, hcounts, hnow]
    exact ⟨_, rfl, rfl⟩

/-- The list can be shown if the time can be told and the numbers of the reports can be written.
Their names are those of folders, which have no slash and so close no style. -/
theorem shows_of_latest {m : Machine} {results : List (Project × Report)}
    (hlatest : ∀ name, Report.latest? m name = .ok (lastReport? name results))
    (hresults : ∀ x ∈ results, m.now = .ok x.2.scannedAt ∧ x.2.Writable)
    (hnames : ∀ x ∈ results, '/' ∉ x.2.project.toList) : Shows m results where
  latest := hlatest
  list hterminal args config root projects hargs hload hroot hdiscover hne := by
    have hrow (p : Project) (_ : p ∈ projects) : ∃ row, Display.overviewRow m.now p.name
        (lastReport? p.name results) = .ok row ∧
          row.isScanned = (lastReport? p.name results).isSome := by
      refine exists_overviewRow p.name fun r hr => ?_
      obtain ⟨q, hresult, -⟩ := mem_of_lastReport? hr
      exact hresults (q, r) hresult
    obtain ⟨rows, hrows, hscanned⟩ := exists_mapM hrow
    -- Only the names of scanned projects are read as markup. They have no slash, and so no closing
    -- tag is in them.
    have htidy : ∀ row ∈ rows, ∀ s, Cell.text s ∈ row.cells → Markup.IsTidy s := by
      intro row hrow s hs
      obtain ⟨p, -, hp⟩ := exists_of_mem_mapM hrows hrow
      refine Display.isTidy_overviewRow hp (fun hsome => ?_) hs
      obtain ⟨r, hr⟩ := Option.isSome_iff_exists.1 hsome
      obtain ⟨q, hresult, hproject⟩ := mem_of_lastReport? hr
      exact Markup.isTidy_of_slashFree (hproject ▸ hnames (q, r) hresult)
    refine ⟨rows, hrows, hscanned,
      Command.run_list hargs hload hroot hdiscover hne ?_ hterminal htidy⟩
    simp only [hlatest]
    exact hrows

namespace Completes

variable {target : Option String} {all : Bool} {m last : Machine} {projects : List Project}
  {results : List (Project × Report)} {folder : Path} {entries : List (String × Node)}

/-- The reports have names that folders can have. -/
theorem canBeNames {scanners : List ProjectScanner} {page : Bool}
    (h : Completes (scanProject scanners) target all page m projects results last)
    (hdisk : m.disk.Sound) :
    ∀ x ∈ results, '/' ∉ x.2.project.toList ∧ '\x00' ∉ x.2.project.toList := by
  intro x hx
  obtain ⟨place, hplace, hproject, -⟩ := h.about (p := x.1) (r := x.2) hdisk hx
  rw [hproject]
  exact hplace.canBeName hdisk

/-- The reports of a scan are those that are stored after it, where none were before. -/
theorem savedFrom (h : Completes standardScan target all false m projects results last)
    (hdisk : m.disk.Sound) (hfolder : m.reportsFolder = .ok folder)
    (hstart : Report.Provides m.disk folder entries)
    (hnone : ∀ name ∈ entries.map Prod.fst, Report.isReportName name = false) :
    Report.SavedFrom m.disk folder entries (results.map Prod.snd) last ∧
      ∀ x ∈ results, x.2.Storable entries :=
  h.scanned.savedFrom ⟨hfolder, .inl ⟨rfl, rfl⟩⟩ hstart (h.canBeNames hdisk) hnone

/-- **What a scan results in is shown after it**, where no reports were before. -/
theorem shows (h : Completes standardScan target all false m projects results last)
    (hdisk : m.disk.Sound) (hfolder : m.reportsFolder = .ok folder)
    (hopen : m.disk.isClosed folder = false) (hstart : Report.Provides m.disk folder entries)
    (hnone : ∀ name ∈ entries.map Prod.fst, Report.isReportName name = false)
    (hwritable : ∀ x ∈ results, x.2.Writable) (hnow : last.now = m.now) : Shows last results := by
  obtain ⟨hsaved, hstorable⟩ := h.savedFrom hdisk hfolder hstart hnone
  have htime : ∀ x ∈ results, last.now = .ok x.2.scannedAt := by
    intro x hx
    obtain ⟨-, -, -, htime⟩ := h.about (p := x.1) (r := x.2) hdisk hx
    rw [hnow, htime]
  refine shows_of_latest (fun name => hsaved.latest?_eq hstart hopen hnone ?_ ?_ name)
    (fun x hx => ⟨htime x hx, hwritable x hx⟩) fun x hx => (h.canBeNames hdisk x hx).1
  · intro r hr
    obtain ⟨x, hx, rfl⟩ := List.mem_map.1 hr
    exact ⟨hstorable x hx, hwritable x hx⟩
  · -- All scans tell the same time, so that no report is of a later day than another.
    intro r hr s hs
    obtain ⟨x, hx, rfl⟩ := List.mem_map.1 hr
    obtain ⟨y, hy, rfl⟩ := List.mem_map.1 hs
    rw [Except.ok.inj ((htime x hx).symm.trans (htime y hy))]
    simp [Date.Before]

end Completes

/-- **What the list shows after a scan of all projects**, where no reports were before. Each report
has the name of the folder in which the path of its project ends; this is the name of the project,
unless the project is a link. The list shows, under the name of a project, the last report of that
name. So it shows the report of the project, if it has that name and no other project has a report
of it. -/
theorem list_shows_scanned {args : List String} {target : Option String} {json : Bool}
    {m last : Machine} {folder : Path} {entries : List (String × Node)} {output : String}
    {printed : List Printed}
    (hargs : Invocation.ofArguments? args = some (.scan target true false json))
    (hdisk : m.disk.Sound) (hfolder : m.reportsFolder = .ok folder)
    (hopen : m.disk.isClosed folder = false) (hstart : Report.Provides m.disk folder entries)
    (hnone : ∀ name ∈ entries.map Prod.fst, Report.isReportName name = false)
    (hrun : run standardScan args m = (.ended 0 output "" printed none, last)) :
    ∃ config root projects results, Config.load m = .ok config ∧ config.workspace m = .ok root ∧
      Project.discover m.disk root config.excluded = .ok projects ∧
      Scanned standardScan false m projects results last ∧ results.map Prod.fst = projects ∧
      (∀ p r, (p, r) ∈ results → ∃ place, m.disk.EndsIn (.ofString p.path) place ∧
        r.project = Path.name ⟨.root, place⟩) ∧
      (∀ listed p r, m.disk.list root = .ok listed → (p, r) ∈ results →
        (∀ target, (p.name, .link target) ∉ listed) → r.project = p.name) ∧
      ((json = false → ∀ x ∈ results, x.2.Writable) → Shows last results ∧
        ∀ p r, (p, r) ∈ results → r.project = p.name →
          (∀ q s, (q, s) ∈ results → s.project = p.name → q.name = p.name) →
          Report.latest? last p.name = .ok (some r)) := by
  obtain ⟨projects, results, hcompletes, hall, hjson⟩ := completes_of_run hargs hrun
  obtain ⟨config, hload, htargets⟩ := hcompletes.targets
  cases htargets with
  | @all _ root _ hroot hdiscover =>
    have habout (p : Project) (r : Report) (hresult : (p, r) ∈ results) :=
      hcompletes.about hdisk hresult
    refine ⟨config, root, projects, results, hload, hroot, hdiscover, hcompletes.scanned, hall rfl,
      ?_, ?_, fun hwritable => ?_⟩
    · intro p r hresult
      obtain ⟨place, hplace, hproject, -⟩ := habout p r hresult
      exact ⟨place, hplace, hproject⟩
    · intro listed p r hlist hresult hlink
      obtain ⟨place, hplace, hproject, -⟩ := habout p r hresult
      rw [hproject]
      exact Project.endsIn_name_of_mem_discover hdisk hroot hlist hdiscover
        (hcompletes.scanned.mem_of_result hresult) hlink hplace
    have hnow : last.now = m.now := by
      have halters : m.Alters (run standardScan args m).2 _ _ := run_alters_scan m hargs
      rw [hrun] at halters
      exact halters.now_eq
    -- That the reports could be printed as JSON shows that they can be written.
    have hwritten : ∀ x ∈ results, x.2.Writable := by
      cases json with
      | false => exact hwritable rfl
      | true =>
        obtain ⟨-, text, htext, -⟩ := hjson rfl
        exact fun x hx => (Command.of_reportsText htext).1 x.2 (List.mem_map_of_mem hx)
    have hshows := hcompletes.shows hdisk hfolder hopen hstart hnone hwritten hnow
    refine ⟨hshows, fun p r hresult hproject hothers => ?_⟩
    have hdistinct : (results.map fun x => x.1.name).Nodup := by
      have hnodup := Project.nodup_names_of_discover hdisk.distinct hdiscover
      rwa [← hall rfl, List.map_map] at hnodup
    rw [hshows.latest, lastReport?_of_mem hresult hproject hdistinct hothers]

section Linked

open Command Node

/-- The machine with a link to a project in another folder, and other entries beside it. -/
abbrev linkMachine (others : List (String × Node)) : Machine :=
  rootMachine (("d", .folder [("real", .folder [("go.mod", .file [])])]) ::
    ("l", .link "d/real") :: others)

theorem sound_linkMachine : (linkMachine [plainEntry]).disk.Sound where
  named := by
    have hname : IsEntryName "d" ∧ IsEntryName "real" ∧ IsEntryName "go.mod" ∧ IsEntryName "l" ∧
        IsEntryName "p" := by
      simp [IsEntryName, IsPlain]
    obtain ⟨hd, hreal, hmod, hl, hp⟩ := hname
    have hproject : Named IsEntryName (.folder [("go.mod", .file [])]) :=
      .folder (by simp) (List.forall_mem_singleton.2 hmod) (List.forall_mem_singleton.2 (.file []))
    refine .folder (by simp [plainEntry]) ?_ ?_
    · simp only [plainEntry, List.forall_mem_cons, List.not_mem_nil, false_implies, implies_true]
      exact ⟨hd, hl, hp, trivial⟩
    · simp only [plainEntry, List.forall_mem_cons, List.not_mem_nil, false_implies, implies_true]
      exact ⟨.folder (by simp) (List.forall_mem_singleton.2 hreal)
        (List.forall_mem_singleton.2 hproject), .link _, hproject, trivial⟩
  links := by
    have hproject : NulFreeLinks (.folder [("go.mod", .file [])]) :=
      link_of_folder (List.forall_mem_singleton.2 fun names target hlink =>
        absurd hlink (find?_file_ne_link [] names target))
    refine link_of_folder ?_
    simp only [plainEntry, List.forall_mem_cons, List.not_mem_nil, false_implies, implies_true]
    refine ⟨link_of_folder (List.forall_mem_singleton.2 hproject), fun names target hlink => ?_,
      hproject, trivial⟩
    cases names with
    | nil =>
      cases hlink
      decide
    | cons name rest => cases hlink
  straight := .root
  working := ⟨_, rfl⟩

/-- A plain project beside a link to a folder of another name. -/
theorem list_shows_scanned_linked :
    let m₁ := (run standardScan ["scan", "--all", "--json"] (linkMachine [plainEntry])).2
    let l := Project.plain ⟨.root, ["l"]⟩
    let p := Project.plain ⟨.root, ["p"]⟩
    ∃ r s, Scanned standardScan false (linkMachine [plainEntry]) [l, p] [(l, s), (p, r)] m₁ ∧
      s.project = "real" ∧ r.project = "p" ∧ Shows m₁ [(l, s), (p, r)] ∧
      Report.latest? m₁ "p" = .ok (some r) := by
  intro m₁ l p
  have hargs : Invocation.ofArguments? ["scan", "--all", "--json"] =
      some (.scan none true false true) := rfl
  obtain ⟨hclean, hload, hdiscover, hl, hp⟩ :
      (run standardScan ["scan", "--all", "--json"] (linkMachine [plainEntry])).1.isClean = true ∧
      Config.load (linkMachine [plainEntry]) = .ok {} ∧
      Project.discover (linkMachine [plainEntry]).disk ⟨.root, []⟩ ({} : Config).excluded =
        .ok [l, p] ∧
      (linkMachine [plainEntry]).disk.resolve (.ofString l.path) = .ok ⟨.root, ["d", "real"]⟩ ∧
      (linkMachine [plainEntry]).disk.resolve (.ofString p.path) = .ok ⟨.root, ["p"]⟩ := by
    decide +kernel
  have hstart :
      Report.Provides (linkMachine [plainEntry]).disk ⟨.root, ["store", "reports"]⟩ [] := by
    have hmissing : (linkMachine [plainEntry]).disk.makeFolder ⟨.root, ["store", "reports"]⟩ =
      .error .notFound := rfl
    have hstore : (linkMachine [plainEntry]).disk.makeFolder ⟨.root, ["store"]⟩ =
      .ok (linkMachine [plainEntry, ("store", .folder [])]).disk := rfl
    have hreports : (linkMachine [plainEntry, ("store", .folder [])]).disk.makeFolder
        ⟨.root, ["store", "reports"]⟩ =
      .ok (linkMachine [plainEntry, ("store", .folder [("reports", .folder [])])]).disk := rfl
    refine .inr ⟨rfl, (linkMachine [plainEntry, ("store", .folder [("reports", .folder [])])]).disk,
      ?_, rfl⟩
    simp [Disk.makeFolders, Disk.makeFoldersAt, Disk.folderLimit, hmissing, hstore, hreports]
  obtain ⟨output, printed, hrun⟩ := Outcome.exists_of_isClean hclean
  obtain ⟨config, root, projects, results, hconfig, hroot, hprojects, hscanned, hall, hends, -,
    hshows⟩ := list_shows_scanned hargs sound_linkMachine rfl rfl hstart (by simp) hrun
  have hworkspace : ({} : Config).workspace (linkMachine [plainEntry]) = .ok ⟨.root, []⟩ := rfl
  obtain rfl := Except.ok.inj (hload.symm.trans hconfig)
  obtain rfl := Except.ok.inj (hworkspace.symm.trans hroot)
  obtain rfl := Except.ok.inj (hdiscover.symm.trans hprojects)
  obtain ⟨⟨_, s⟩, others, rfl, rfl, hothers⟩ := List.map_eq_cons_iff.1 hall
  obtain ⟨⟨_, r⟩, rfl, rfl⟩ := List.map_eq_singleton_iff.1 hothers
  -- A report is named after the place that its project resolves to, which is `d/real` for the link
  -- `l`.
  have hproject {q : Project} {t : Report} {place : List String}
      (hresult : (q, t) ∈ [(l, s), (p, r)])
      (hplace : (linkMachine [plainEntry]).disk.resolve (.ofString q.path) = .ok ⟨.root, place⟩) :
      t.project = Path.name ⟨.root, place⟩ := by
    obtain ⟨place', hends', hproject⟩ := hends q t hresult
    cases (hends'.resolve_eq sound_linkMachine).symm.trans hplace
    exact hproject
  have hs : s.project = "real" := hproject (by simp) hl
  have hr : r.project = "p" := hproject (by simp) hp
  obtain ⟨hshown, hlatest⟩ := hshows (by simp)
  refine ⟨r, s, hscanned, hs, hr, hshown, hlatest p r (by simp) hr ?_⟩
  intro q t hresult ht
  simp only [List.mem_cons, Prod.mk.injEq, List.not_mem_nil, or_false] at hresult
  rcases hresult with ⟨rfl, rfl⟩ | ⟨rfl, rfl⟩
  · rw [hs] at ht
    exact absurd ht (by decide)
  · rfl

/-- The report on a project that is a link is stored, and the list does not show it. -/
theorem list_hides_linked :
    let m₁ := (run standardScan ["scan", "--all"] (linkMachine [])).2
    (run standardScan ["scan", "--all"] (linkMachine [])).1.isClean = true ∧
    (m₁.disk.list ⟨.root, ["store", "reports"]⟩).toOption.map (fun es => es.map Prod.fst) =
      some ["real-1970-01-01.json"] ∧
    Report.latest? m₁ "l" = .ok none ∧
    (run standardScan ["list"] m₁).1 = .ended 0 "" ""
      (Display.overviewHeader 1 ++ Display.overviewTable
        [⟨false, .styled (.of "l" "dim") ::
          ["?", "-", "-", "-", "-", "not scanned"].map .text⟩]) none := by
  decide +kernel

end Linked

end WorkspaceAudit
