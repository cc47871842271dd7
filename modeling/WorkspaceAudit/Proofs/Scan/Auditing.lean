import WorkspaceAudit.Proofs.Scan.Consistency
import WorkspaceAudit.Proofs.Scan.Routes
import WorkspaceAudit.Proofs.Scan.Totality

/-!
# What the audit tool can change

The audit tool is run for the dependencies of a project. It may be missing, hang or print anything.

- `gather_standard`: the findings of the standard scanners, kind by kind.
- `one_le_line_of_mem_gather`: none of them is in front of the first line of its file.
- `auditTool_confined`: the tool changes nothing but the findings on dependencies, which stand
  together in their place, and it makes no scan fail.
-/

namespace WorkspaceAudit

open ProjectScanner

variable {d : Disk} {m : Machine} {project root : Path} {found : List Finding} {f : Finding}

/-! ## Where findings come from -/

theorem mem_findingsOf {outcome : Except Fault (List Finding)} (h : f ∈ findingsOf outcome) :
    ∃ found, outcome = .ok found ∧ f ∈ found := by
  cases outcome with
  | error fault => cases h
  | ok found => exact ⟨found, rfl, h⟩

namespace RuleSet

variable {set : RuleSet}

theorem mem_of_scanFile {file : Path} (h : set.scanFile d root file = .ok found) (hf : f ∈ found) :
    ∃ path content, f ∈ set.scanContent path content := by
  unfold scanFile at h
  split at h
  · rename_i content hread
    obtain ⟨place, -, h⟩ := exists_ok_of_bind h
    obtain ⟨path, -, h⟩ := exists_ok_of_bind h
    obtain rfl := Except.ok.inj h
    exact ⟨path, content, hf⟩
  · split at h
    · obtain rfl := Except.ok.inj h
      cases hf
    · cases h

/-- A finding in a project is a finding in some text. -/
theorem mem_of_scanProject (h : set.scanProject d project = .ok found) (hf : f ∈ found) :
    ∃ path content, f ∈ set.scanContent path content := by
  obtain ⟨root, -, h⟩ := exists_ok_of_bind h
  obtain ⟨collected, -, h⟩ := exists_ok_of_bind h
  obtain ⟨place, -, h⟩ := exists_ok_of_bind h
  obtain ⟨parts, hparts, h⟩ := exists_ok_of_bind h
  obtain rfl := Except.ok.inj h
  obtain ⟨part, hpart, hf⟩ := List.mem_flatten.1 hf
  obtain ⟨file, -, hfile⟩ := exists_of_mem_mapM hparts hpart
  exact mem_of_scanFile hfile hf

theorem scanner_of_mem_scanContent {path : String} {content : List Char}
    (h : f ∈ set.scanContent path content) : f.scanner = set.scanner := by
  obtain ⟨rule, -, hit, -, -, rfl⟩ := exists_hit_of_mem_scanContent h
  have hplain (c : Candidate) (verdict : Verdict) :
      (set.finding c verdict).scanner = set.scanner := by
    cases verdict <;> rfl
  unfold report
  split
  · exact hplain _ _
  · exact hplain _ _

end RuleSet

namespace Audit

/-- A finding in the output of the tool is that of a package. -/
theorem mem_of_findings {output : Json LooseText} (h : findings output = .ok found)
    (hf : f ∈ found) : ∃ package v, finding package v = .ok f := by
  obtain ⟨payload, -, h⟩ := exists_ok_of_bind h
  have hpackages : ∃ packages : Json.Members,
      packages.mapM (fun entry => finding entry.1 entry.2) = .ok found := by
    dsimp only at h
    split at h
    all_goals
      obtain ⟨packages, -, h⟩ := exists_ok_of_bind h
      exact ⟨packages, h⟩
  obtain ⟨packages, hpackages⟩ := hpackages
  obtain ⟨⟨package, v⟩, -, hfinding⟩ := exists_of_mem_mapM hpackages hf
  exact ⟨package, v, hfinding⟩

/-- The finding of a package is on the dependencies, and on no line. -/
theorem of_finding {package : LooseText} {v : Json LooseText} (h : finding package v = .ok f) :
    f.scanner = .deps ∧ f.location = .file "package.json" := by
  obtain ⟨vulnerability, -, h⟩ := exists_ok_of_bind h
  obtain ⟨names, -, h⟩ := exists_ok_of_bind h
  obtain rfl := Except.ok.inj h
  exact ⟨rfl, rfl⟩

end Audit

theorem mem_of_scanDependencies (h : scanDependencies m root = .ok found) (hf : f ∈ found) :
    ∃ package v, Audit.finding package v = .ok f := by
  obtain ⟨there, -, h⟩ := exists_ok_of_bind h
  cases there with
  | false =>
    obtain rfl := Except.ok.inj h
    cases hf
  | true =>
    obtain ⟨output?, -, h⟩ := exists_ok_of_bind h
    cases output? with
    | none =>
      obtain rfl := Except.ok.inj h
      cases hf
    | some output => exact Audit.mem_of_findings h hf

theorem mem_of_scanRoutes (h : scanRoutes d root = .ok found) (hf : f ∈ found) :
    f = noAuthentication ∨ ∃ path content hit, f = routeReport path content hit := by
  unfold scanRoutes at h
  cases hsources : d.routeSources root with
  | error fault =>
    rw [hsources] at h
    cases h
  | ok sources =>
    rw [hsources] at h
    obtain rfl := Except.ok.inj h
    unfold routeFindings at hf
    split_ifs at hf
    · obtain ⟨⟨path, content⟩, -, hf⟩ := List.mem_flatMap.1 hf
      obtain ⟨hit, -, -, rfl⟩ := mem_unprotectedRoutes.1 hf
      exact .inr ⟨path, content, hit, rfl⟩
    · exact .inl (List.mem_singleton.1 hf)
    · cases hf

/-- **The findings of the standard scanners, kind by kind.** -/
theorem gather_standard (m : Machine) (root : Path) :
    gather standard m root =
      findingsOf (RuleSet.secrets.scanProject m.disk root) ++
        findingsOf (scanDependencies m root) ++
        (findingsOf (RuleSet.insecure.scanProject m.disk root) ++
          findingsOf (scanRoutes m.disk root)) := by
  have hrun : gather standard m root =
      (Slot.runAll (jobs standard m root)).flatMap findingsOf := rfl
  rw [hrun, Slot.runAll_eq, map_result_jobs]
  simp [standard, secrets, dependencies, insecure, routes]

theorem scanner_of_mem_rules {set : RuleSet}
    (hf : f ∈ findingsOf (set.scanProject d root)) : f.scanner = set.scanner := by
  obtain ⟨found, hscan, hf⟩ := mem_findingsOf hf
  obtain ⟨path, content, hf⟩ := RuleSet.mem_of_scanProject hscan hf
  exact RuleSet.scanner_of_mem_scanContent hf

theorem scanner_of_mem_dependencies (hf : f ∈ findingsOf (scanDependencies m root)) :
    f.scanner = .deps := by
  obtain ⟨found, hscan, hf⟩ := mem_findingsOf hf
  obtain ⟨package, v, hf⟩ := mem_of_scanDependencies hscan hf
  exact (Audit.of_finding hf).1

theorem scanner_of_mem_routes (hf : f ∈ findingsOf (scanRoutes d root)) : f.scanner = .auth := by
  obtain ⟨found, hscan, hf⟩ := mem_findingsOf hf
  rcases mem_of_scanRoutes hscan hf with rfl | ⟨path, content, hit, rfl⟩
  · rfl
  · rfl

theorem one_le_lineNumberAt (content : List Char) (offset : Nat) :
    1 ≤ (Located.ofContent content).lineNumberAt offset := by
  have hfirst := Located.lineNumberAt_length [] content
  rw [List.nil_append, List.count_nil, List.length_nil] at hfirst
  rw [← Nat.zero_add 1, ← hfirst]
  exact Located.lineNumberAt_mono _ (Int.ofNat_le.2 (Nat.zero_le offset))

/-- **Lines are counted from one** in all findings of the standard scanners. -/
theorem one_le_line_of_mem_gather {n : Nat} (hf : f ∈ gather standard m root)
    (hn : n ∈ f.location.line?) : 1 ≤ n := by
  have hrules {set : RuleSet} (hf : f ∈ findingsOf (set.scanProject m.disk root)) : 1 ≤ n := by
    obtain ⟨found, hscan, hf⟩ := mem_findingsOf hf
    obtain ⟨path, content, hf⟩ := RuleSet.mem_of_scanProject hscan hf
    obtain ⟨line, hlocation, hline, -⟩ := RuleSet.line_of_mem_scanContent hf
    rw [hlocation] at hn
    obtain rfl := Option.some.inj hn
    exact hline
  rw [gather_standard, List.mem_append, List.mem_append, List.mem_append] at hf
  rcases hf with (hf | hf) | hf | hf
  · exact hrules hf
  · obtain ⟨found, hscan, hf⟩ := mem_findingsOf hf
    obtain ⟨package, v, hf⟩ := mem_of_scanDependencies hscan hf
    rw [(Audit.of_finding hf).2] at hn
    cases hn
  · exact hrules hf
  · obtain ⟨found, hscan, hf⟩ := mem_findingsOf hf
    rcases mem_of_scanRoutes hscan hf with rfl | ⟨path, content, hit, rfl⟩
    · cases hn
    · obtain rfl := Option.some.inj hn
      exact one_le_lineNumberAt content hit.start

/-! ## Two tools -/

/-- A scan without scanners does not ask the tool. -/
theorem scanProject_nil_auditTool (m : Machine) (tool : AuditTool) :
    ((scanProject [] project).run { m with auditTool := tool }).1 =
      ((scanProject [] project).run m).1 := by
  cases hroot : m.disk.resolve project with
  | error fault =>
    rw [scanProject_run_of_resolve_error (m := { m with auditTool := tool }) hroot,
      scanProject_run_of_resolve_error hroot]
  | ok root =>
    cases hnow : m.now with
    | error fault =>
      rw [scanProject_run_of_now_error (m := { m with auditTool := tool }) hroot hnow,
        scanProject_run_of_now_error hroot hnow]
    | ok now =>
      rw [scanProject_run (m := { m with auditTool := tool }) hroot hnow,
        scanProject_run hroot hnow]
      rfl

/-- **The audit tool changes nothing but the findings on dependencies.** The findings below a folder
that is there are those of secrets, then those on dependencies, then those of insecure patterns and
of routes. All but those on dependencies are the same on any two machines with that disk, whatever
their tools do, and a scan gives them on each machine whose clock and stopwatch allow a report. On
any machine at all, no tool makes a scan fail. -/
theorem auditTool_confined (d : Disk) (project : Path) (hdisk : d.top.Named IsEntryName)
    (hhere : Node.Straight d.top d.here.reverse) (hproject : d.isFolder? project = .ok true) :
    (∃ secret pattern route : List Finding, (∀ f ∈ secret, f.scanner = .secrets) ∧
      (∀ f ∈ pattern, f.scanner = .patterns) ∧ (∀ f ∈ route, f.scanner = .auth) ∧
      ∀ m : Machine, m.disk = d → m.Timed → ∃ r dep,
        ((scanProject standard project).run m).1 = .ok r ∧ (∀ f ∈ dep, f.scanner = .deps) ∧
        r.findings = secret ++ dep ++ (pattern ++ route) ∧
        r.findings.filter (fun f => f.scanner ≠ .deps) = secret ++ (pattern ++ route)) ∧
    ∀ (m : Machine) (tool : AuditTool) (path : Path) (fault : Fault),
      ((scanProject standard path).run { m with auditTool := tool }).1 = .error fault ↔
        ((scanProject standard path).run m).1 = .error fault := by
  constructor
  · obtain ⟨place, hroot, -, -⟩ := Disk.resolve_project hdisk hhere hproject
    have hsecret : ∀ f ∈ findingsOf (RuleSet.secrets.scanProject d ⟨.root, place⟩),
        f.scanner = .secrets := fun f => scanner_of_mem_rules
    have hpattern : ∀ f ∈ findingsOf (RuleSet.insecure.scanProject d ⟨.root, place⟩),
        f.scanner = .patterns := fun f => scanner_of_mem_rules
    have hroute : ∀ f ∈ findingsOf (scanRoutes d ⟨.root, place⟩), f.scanner = .auth :=
      fun f => scanner_of_mem_routes
    -- Three of the scanners look at the disk only, so that their findings are the same for every
    -- tool.
    refine ⟨_, _, _, hsecret, hpattern, hroute, ?_⟩
    rintro m rfl htimed
    obtain ⟨now, ms, r, hr, hok⟩ := htimed.scanProject_ok standard hroot
    have hfindings := (Report.consistent_ofFindings hr).1
    rw [gather_standard] at hfindings
    have hdep : ∀ f ∈ findingsOf (scanDependencies m.afterReading ⟨.root, place⟩),
        f.scanner = .deps := fun f => scanner_of_mem_dependencies
    refine ⟨r, _, hok, hdep, hfindings, ?_⟩
    have hkeep {fs : List Finding} (hfs : ∀ f ∈ fs, f.scanner ≠ .deps) :
        fs.filter (fun f => f.scanner ≠ .deps) = fs :=
      List.filter_eq_self.2 fun f hf => decide_eq_true (hfs f hf)
    have hleave {fs : List Finding} (hfs : ∀ f ∈ fs, f.scanner = .deps) :
        fs.filter (fun f => f.scanner ≠ .deps) = [] :=
      List.filter_eq_nil_iff.2 fun f hf => by simp [hfs f hf]
    rw [hfindings, List.filter_append, List.filter_append, List.filter_append, hleave hdep,
      List.append_nil, hkeep fun f hf => by simp [hsecret f hf],
      hkeep fun f hf => by simp [hpattern f hf], hkeep fun f hf => by simp [hroute f hf]]
    rfl
  · intro m tool path fault
    -- No scanner makes the scan fail: it fails as it would without any.
    have hnone (m : Machine) : ((scanProject standard path).run m).1 = .error fault ↔
        ((scanProject [] path).run m).1 = .error fault := scanProject_error_iff
    rw [hnone, hnone, scanProject_nil_auditTool]

/-- A machine with a project at its top that has dependencies and calls what it should not. -/
def auditedMachine (tool : AuditTool) : Machine :=
  { bareMachine with
    disk := filesDisk [("package.json", "\x7b\x7d"), ("a.js", "eval(x)")]
    auditTool := tool }

/-- What a tool prints that names one package. -/
def onePackage : String := "\x7b\"vulnerabilities\":\x7b\"p\":\x7b\x7d\x7d\x7d"

theorem timed_auditedMachine (tool : AuditTool) : (auditedMachine tool).Timed :=
  Machine.timed_of_standing (exists_now_of_clock rfl) rfl

/-- A tool that names a package, and one that hangs. -/
theorem auditTool_confined_hanging :
    ∃ r other,
      ((scanProject standard ⟨.root, []⟩).run (auditedMachine (.prints onePackage))).1 = .ok r ∧
      r.findings.map Finding.scanner = [.deps, .patterns] ∧
      ((scanProject standard ⟨.root, []⟩).run (auditedMachine .timesOut)).1 = .ok other ∧
      r.findings.filter (fun f => f.scanner ≠ .deps) =
        other.findings.filter (fun f => f.scanner ≠ .deps) := by
  have hdisk : (auditedMachine .missing).disk.top.Named IsEntryName :=
    named_filesDisk (by decide) (by simp [IsEntryName, Node.IsPlain])
  obtain ⟨⟨secret, pattern, route, -, -, -, hscan⟩, -⟩ :=
    auditTool_confined (auditedMachine .missing).disk ⟨.root, []⟩ hdisk .root rfl
  obtain ⟨r, dep, hr, -, -, hleft⟩ := hscan
    (auditedMachine (.prints onePackage)) rfl (timed_auditedMachine _)
  obtain ⟨other, -, hother, -, -, hleft'⟩ := hscan (auditedMachine .timesOut) rfl
    (timed_auditedMachine _)
  have hfindings : ((scanProject standard ⟨.root, []⟩).run
      (auditedMachine (.prints onePackage))).1.toOption.map
        (fun r => r.findings.map Finding.scanner) = some [.deps, .patterns] := by decide +kernel
  rw [hr] at hfindings
  exact ⟨r, other, hr, Option.some.inj hfindings, hother, hleft.trans hleft'.symm⟩

end WorkspaceAudit
