import WorkspaceAudit.Proofs.Files.Altering
import WorkspaceAudit.Proofs.Scan.Merging
import WorkspaceAudit.Proofs.Workspace.Actions
import WorkspaceAudit.Report.Store
import WorkspaceAudit.Workspace.Discovery

/-!
# What actions alter

An action alters files and folders on the disk of a machine and takes readings of its stopwatch;
nothing else of a machine is ever changed. So the paths at which the program writes can be told from
the machine as it was at the start.

- `Machine.Alters m m' written made`: the machine has become the other one.
- `Action.alters_bind`: the steps of an action, whether or not it ends in a fault on the way.
- `Report.alters_save`, `Report.alters_savePage`, `Config.alters_save`: where reports, pages and
  settings are written.
- `scanProject_alters`: a scan of a project alters no file and no folder.
- `Machine.IsReportPath m p q`: the path at which the report on a project is written.
-/

namespace WorkspaceAudit

/-- **A relation that holds along the steps of a run** holds over the run, also if it ends early. -/
theorem related_bind {ε σ α β : Type} {R : σ → σ → Prop} (htrans : ∀ {s t u}, R s t → R t u → R s u)
    {x : ExceptT ε (StateM σ) α} {f : α → ExceptT ε (StateM σ) β} {s : σ} (hx : R s (x.run s).2)
    (hf : ∀ a t, x.run s = (.ok a, t) → R s t → R t ((f a).run t).2) :
    R s ((x >>= f).run s).2 := by
  rcases hrun : x.run s with ⟨e | a, t⟩
  · rw [run_bind_error hrun]
    rw [hrun] at hx
    exact hx
  · rw [run_bind_ok hrun]
    rw [hrun] at hx
    exact htrans hx (hf a t hrun hx)

variable {m m' m'' : Machine} {written made written' made' : Path → Prop}

/-- **The machine has become another one** by files that have been written and folders that have
been made on its disk, and by readings of its stopwatch. -/
structure Machine.Alters (m m' : Machine) (written made : Path → Prop) : Prop where
  disk : m.disk.Alters m'.disk written made
  rest : ∃ disk taken, m' = { m with disk := disk, taken := taken }

namespace Machine.Alters

theorem refl (m : Machine) (written made : Path → Prop) : m.Alters m written made :=
  ⟨.refl m.disk written made, m.disk, m.taken, rfl⟩

theorem trans (h : m.Alters m' written made) (h' : m'.Alters m'' written made) :
    m.Alters m'' written made := by
  refine ⟨h.disk.trans h'.disk, ?_⟩
  obtain ⟨disk, taken, rfl⟩ := h.rest
  obtain ⟨disk', taken', rfl⟩ := h'.rest
  exact ⟨disk', taken', rfl⟩

theorem mono (h : m.Alters m' written made) (hwritten : ∀ p, written p → written' p)
    (hmade : ∀ p, made p → made' p) : m.Alters m' written' made' :=
  ⟨h.disk.mono hwritten hmade, h.rest⟩

theorem of_disk {d : Disk} (h : m.disk.Alters d written made) :
    m.Alters { m with disk := d } written made :=
  ⟨h, d, m.taken, rfl⟩

theorem of_taken (m : Machine) (taken : Nat) (written made : Path → Prop) :
    m.Alters { m with taken := taken } written made :=
  ⟨.refl m.disk written made, m.disk, taken, rfl⟩

theorem reportsFolder_eq (h : m.Alters m' written made) : m'.reportsFolder = m.reportsFolder := by
  obtain ⟨disk, taken, rfl⟩ := h.rest
  rfl

theorem now_eq (h : m.Alters m' written made) : m'.now = m.now := by
  obtain ⟨disk, taken, rfl⟩ := h.rest
  rfl

theorem terminal_eq (h : m.Alters m' written made) : m'.terminal = m.terminal := by
  obtain ⟨disk, taken, rfl⟩ := h.rest
  rfl

theorem auditTool_eq (h : m.Alters m' written made) : m'.auditTool = m.auditTool := by
  obtain ⟨disk, taken, rfl⟩ := h.rest
  rfl

end Machine.Alters

namespace Action

variable {α β : Type} {f : Machine → Except Fault α}

/-- **The steps of an action.** -/
theorem alters_bind {x : Action α} {g : α → Action β} (hx : m.Alters (x.run m).2 written made)
    (hg : ∀ a t, x.run m = (.ok a, t) → m.Alters t written made →
      t.Alters ((g a).run t).2 written made) :
    m.Alters ((x >>= g).run m).2 written made :=
  related_bind (R := fun s t => Machine.Alters s t written made) .trans hx hg

theorem alters_inspect (f : Machine → Except Fault α) (m : Machine)
    (written made : Path → Prop) : m.Alters ((inspect f).run m).2 written made := by
  rw [inspect_run]
  exact .refl m written made

theorem of_inspect_run {a : α} (h : (inspect f).run m = (.ok a, m')) : f m = .ok a ∧ m' = m := by
  rw [inspect_run] at h
  exact ⟨(Prod.mk.inj h).1, (Prod.mk.inj h).2.symm⟩

theorem of_change_run {f : Disk → Except Fault Disk} {a : Unit}
    (h : (change f).run m = (.ok a, m')) : ∃ d, f m.disk = .ok d ∧ m' = { m with disk := d } := by
  cases hf : f m.disk with
  | error fault =>
    rw [change_run_error hf] at h
    cases h
  | ok d =>
    rw [change_run_ok hf] at h
    exact ⟨d, rfl, (Prod.mk.inj h).2.symm⟩

theorem of_makeFolders_run {p : Path} {outcome : Except Fault Unit}
    (h : (makeFolders p).run m = (outcome, m')) :
    ∃ d, m.disk.makeFolders p = (outcome, d) ∧ m' = { m with disk := d } := by
  rcases hmake : m.disk.makeFolders p with ⟨made, d⟩
  rw [makeFolders_run hmake] at h
  obtain ⟨rfl, rfl⟩ := Prod.mk.inj h
  exact ⟨d, rfl, rfl⟩

theorem alters_change {f : Disk → Except Fault Disk}
    (h : ∀ d, f m.disk = .ok d → m.disk.Alters d written made) :
    m.Alters ((change f).run m).2 written made := by
  cases hf : f m.disk with
  | error fault =>
    rw [change_run_error hf]
    exact .refl m written made
  | ok d =>
    rw [change_run_ok hf]
    exact .of_disk (h d hf)

theorem alters_makeFolders {p : Path} (h : ∀ q : Path, q.IsOnWay p → made q) :
    m.Alters ((makeFolders p).run m).2 written made := by
  rw [makeFolders_run rfl]
  exact .of_disk ((Disk.alters_makeFolders m.disk p).mono (fun _ => False.elim) h)

end Action

/-! ## Where files are written -/

/-- **A report is written into the folder of the reports**, under its name. -/
theorem Report.alters_save (r : Report) (m : Machine) :
    m.Alters (r.save.run m).2
      (fun q => ∃ folder, m.reportsFolder = .ok folder ∧ q = folder.below r.fileName)
      (fun q => ∃ folder, m.reportsFolder = .ok folder ∧ q.IsOnWay folder) := by
  unfold save
  refine Action.alters_bind (Action.alters_inspect _ m _ _) fun folder t hrun _ => ?_
  obtain ⟨hfolder, rfl⟩ := Action.of_inspect_run hrun
  refine Action.alters_bind (Action.alters_makeFolders fun q hq => ⟨folder, hfolder, hq⟩) ?_
  intro _ t _ _
  refine Action.alters_bind (Action.alters_change fun d hwrite => ?_) fun _ u _ _ => .refl u _ _
  obtain ⟨text, -, hwrite⟩ := exists_ok_of_bind hwrite
  refine (Disk.alters_of_writeBytes hwrite).mono ?_ fun _ => False.elim
  rintro q rfl
  exact ⟨folder, hfolder, rfl⟩

/-- **A page is written into the folder of the project**, if it can be made. -/
theorem Report.alters_savePage (r : Report) (folder : Path) (m : Machine) :
    m.Alters ((r.savePage folder).run m).2 (· = folder.below "SECURITY.md") fun _ => False := by
  unfold savePage
  refine Action.alters_bind (Action.alters_change fun d hwrite => ?_) fun _ t _ _ => .refl t _ _
  obtain ⟨text, -, hwrite⟩ := exists_ok_of_bind hwrite
  exact Disk.alters_of_writeBytes hwrite

/-- **The settings are written at their path.** -/
theorem Config.alters_save (c : Config) (m : Machine) :
    m.Alters (c.save.run m).2 (fun q => m.configPath = .ok q)
      (fun q => ∃ path, m.configPath = .ok path ∧ q.IsOnWay path.parent) := by
  unfold save
  refine Action.alters_bind (Action.alters_inspect _ m _ _) fun path t hrun _ => ?_
  obtain ⟨hpath, rfl⟩ := Action.of_inspect_run hrun
  refine Action.alters_bind (Action.alters_makeFolders fun q hq => ⟨path, hpath, hq⟩) ?_
  intro _ t _ _
  refine Action.alters_bind (Action.alters_change fun d hwrite => ?_) fun _ u _ _ => .refl u _ _
  refine (Disk.alters_of_writeBytes hwrite).mono ?_ fun _ => False.elim
  rintro q rfl
  exact hpath

/-! ## Scans -/

section Scans

variable {scanners : List ProjectScanner} {project : Path}

/-- **A scan alters no file and no folder.** -/
theorem scanProject_alters (scanners : List ProjectScanner) (project : Path) (m : Machine)
    (written made : Path → Prop) :
    m.Alters ((scanProject scanners project).run m).2 written made := by
  have hread : ∀ m : Machine, m.Alters m.afterReading written made :=
    fun m => .of_taken m _ written made
  cases hroot : m.disk.resolve project with
  | error fault =>
    rw [scanProject_run_of_resolve_error hroot]
    exact hread m
  | ok root =>
    cases hnow : m.now with
    | error fault =>
      rw [scanProject_run_of_now_error hroot hnow]
      exact hread m
    | ok now =>
      rw [scanProject_run hroot hnow]
      exact (hread m).trans (hread _)

/-- A scan that succeeds gives the report on what its scanners find. -/
theorem ofFindings_of_scanProject {r : Report}
    (h : (scanProject scanners project).run m = (.ok r, m')) :
    ∃ root now ms, m.disk.resolve project = .ok root ∧ m.now = .ok now ∧
      Report.ofFindings root now (gather scanners m.afterReading root) ms = .ok r := by
  cases hroot : m.disk.resolve project with
  | error fault =>
    rw [scanProject_run_of_resolve_error hroot] at h
    cases h
  | ok root =>
    cases hnow : m.now with
    | error fault =>
      rw [scanProject_run_of_now_error hroot hnow] at h
      cases h
    | ok now =>
      rw [scanProject_run hroot hnow] at h
      obtain ⟨ms, -, hreport⟩ := exists_ok_of_bind (Prod.mk.inj h).1
      exact ⟨root, now, ms, rfl, rfl, hreport⟩

/-- What the report of a scan is about: the folder that the path settles to, and the day. -/
theorem about_of_scanProject {r : Report} (h : (scanProject scanners project).run m = (.ok r, m')) :
    ∃ root now, m.disk.settled project = .ok root ∧ m.now = .ok now ∧ r.project = root.name ∧
      r.scannedAt = now := by
  obtain ⟨root, now, ms, hroot, hnow, hreport⟩ := ofFindings_of_scanProject h
  refine ⟨root, now, Disk.settled_of_resolve hroot, hnow, ?_⟩
  unfold Report.ofFindings at hreport
  split at hreport
  all_goals cases hreport
  exact ⟨rfl, rfl⟩

/-- The path is the one at which the report on a project is written. -/
def Machine.IsReportPath (m : Machine) (p : Project) (q : Path) : Prop :=
  ∃ folder root now r, m.reportsFolder = .ok folder ∧
    m.disk.settled (.ofString p.path) = .ok root ∧ m.now = .ok now ∧
    r.project = root.name ∧ r.scannedAt = now ∧ q = folder.below (Report.fileName r)

end Scans

end WorkspaceAudit
