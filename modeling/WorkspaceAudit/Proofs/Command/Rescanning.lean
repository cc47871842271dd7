import WorkspaceAudit.Proofs.Command.Scanning
import WorkspaceAudit.Proofs.Scan.Unread

/-!
# Scans after scans

A scan that writes its reports outside of a project, and pages that are not links, leaves the
project as the scanners see it. So the next scan has the same results.

- `Report.SameResult`: two reports have the same findings, counts, grade and points.
- `Invocation.WritesAside`: an invocation writes nothing that a scan of a folder reads.
- `Invocation.WritesAside.differsUnread`: so the disk differs after it in unread files only.
- `rescan_sameResult`: files that are not read have no influence on scans, and neither has a scan on
  the next one.
-/

namespace WorkspaceAudit

/-- The reports have the same findings, and all that is told from them. -/
structure Report.SameResult (r r' : Report) : Prop where
  findings : r'.findings = r.findings
  summary : r'.summary = r.summary
  grade : r'.grade = r.grade
  points : r'.points = r.points

theorem Report.sameResult_of_ofFindings {root : Path} {now now' : Moment} {findings : List Finding}
    {ms ms' : Int} {r r' : Report} (h : ofFindings root now findings ms = .ok r)
    (h' : ofFindings root now' findings ms' = .ok r') : r.SameResult r' := by
  unfold ofFindings at h h'
  dsimp only at h h'
  split_ifs at h h'
  cases h
  cases h'
  exact ⟨rfl, rfl, rfl, rfl⟩

/-! ## What is new on a disk -/

namespace Disk

open Node

variable {d d' : Disk} {p : Path} {place root x : List String} {written made : Path → Prop}

namespace Alters

/-- **Where an altered disk differs** from what it was, a file has been written where a file or
nothing was, or a folder has been made where nothing was. -/
theorem exists_new (h : d.Alters d' written made) (hd : d.Sound)
    (hdiffer : ¬SameAt d.top d'.top x) :
    ∃ q, d.settled q = .ok ⟨.root, x⟩ ∧
      ((∃ bytes, written q ∧ d'.LeadsTo q x (.file bytes) ∧
        ∀ node, d.top.find? x = some node → ∃ old, node = .file old) ∨
      ∃ entries, made q ∧ d'.top.find? x = some (.folder entries) ∧ d.top.find? x = none) := by
  -- Links and folders stay what they are, so a place that differs had a file before or nothing.
  have hkept (node : Node) (hnode : d.top.find? x = some node) : ∃ old, node = .file old := by
    cases node with
    | file old => exact ⟨old, rfl⟩
    | link target =>
      exact absurd (by rw [SameAt, hnode, h.grows.link hnode]) hdiffer
    | folder entries =>
      obtain ⟨entries', hfolder⟩ := h.grows.folder hnode
      exact absurd (by rw [SameAt, hnode, hfolder]; rfl) hdiffer
  cases hnode : d'.top.find? x with
  | none =>
    cases hold : d.top.find? x with
    | none => exact absurd (by rw [SameAt, hnode, hold]) hdiffer
    | some node =>
      obtain ⟨node', hnode', -⟩ := h.grows hold
      cases hnode.symm.trans hnode'
  | some node =>
    cases node with
    | link target => exact absurd (by rw [SameAt, hnode, h.links hnode]) hdiffer
    | file bytes =>
      rcases h.files hnode with hold | ⟨q, hq, hleads⟩
      · exact absurd (by rw [SameAt, hnode, hold]) hdiffer
      · exact ⟨q, h.settled_of_leadsTo (hd.straight_origin q) hleads,
          .inl ⟨bytes, hq, hleads, hkept⟩⟩
    | folder entries =>
      rcases h.folders hnode with ⟨entries', hold⟩ | ⟨q, hq, hleads⟩
      · exact absurd (by rw [SameAt, hnode, hold]; rfl) hdiffer
      · refine ⟨q, h.settled_of_leadsTo (hd.straight_origin q) hleads, .inr ⟨entries, hq, rfl, ?_⟩⟩
        cases hold : d.top.find? x with
        | none => rfl
        | some node =>
          obtain ⟨old, rfl⟩ := hkept node hold
          obtain ⟨bytes, hfile⟩ := h.grows.file hold
          cases hnode.symm.trans hfile

/-- **An altered disk differs in unread files only** if those that have been written in the folder
are not read, and nothing is new where the files lead that are asked for. -/
theorem differsUnread (h : d.Alters d' written made) (hd : d.Sound)
    (hfiles : ∀ q names bytes, written q → d'.LeadsTo q (place ++ names) (.file bytes) →
      isUnread (names.getLastD "") = true)
    (hshort : ∀ q names, written q ∨ made q → d.settled q = .ok ⟨.root, place ++ names⟩ →
      isTooLong ⟨.root, place ++ names⟩ = false)
    (hled : ∀ name ∈ askedFor, ∀ q x, written q ∨ made q → d.settled q = .ok ⟨.root, x⟩ →
      d.Asks ⟨.root, place ++ [name]⟩ x → ∃ entries, d.top.find? x = some (.folder entries)) :
    d.DiffersUnread d' place where
  here := h.here
  closed := h.closed
  -- Each field goes by what is new at a place that differs: a file written there, or a folder made
  -- where nothing was.
  kind x hdiffer := by
    obtain ⟨q, -, ⟨bytes, -, hleads, hkept⟩ | ⟨entries, -, hfolder, hnone⟩⟩ :=
      h.exists_new hd hdiffer
    · refine ⟨hkept, fun target hlink => ?_⟩
      cases (locate_leads hleads).2.1.symm.trans hlink
    · refine ⟨fun node hnode => ?_, fun target hlink => ?_⟩
      · cases hnone.symm.trans hnode
      · cases hfolder.symm.trans hlink
  unread names hdiffer bytes hfile := by
    obtain ⟨q, -, ⟨bytes', hq, hleads, -⟩ | ⟨entries, -, hfolder, hnone⟩⟩ :=
      h.exists_new hd hdiffer
    · exact hfiles q names bytes' hq hleads
    · rcases hfile with hfile | hfile
      · cases hnone.symm.trans hfile
      · cases hfolder.symm.trans hfile
  short names hdiffer := by
    obtain ⟨q, hq, ⟨bytes, hwritten, -⟩ | ⟨entries, hmade, -⟩⟩ := h.exists_new hd hdiffer
    · exact hshort q names (.inl hwritten) hq
    · exact hshort q names (.inr hmade) hq
  led name hname x hasks := by
    by_contra hdiffer
    obtain ⟨q, hq, ⟨bytes, hwritten, -, hkept⟩ | ⟨entries, hmade, -, hnone⟩⟩ :=
      h.exists_new hd hdiffer
    · obtain ⟨entries, hfolder⟩ := hled name hname q x (.inl hwritten) hq hasks
      obtain ⟨old, hold⟩ := hkept _ hfolder
      cases hold
    · obtain ⟨entries, hfolder⟩ := hled name hname q x (.inr hmade) hq hasks
      cases hnone.symm.trans hfolder

end Alters

end Disk

/-! ## What scans leave as it is -/

namespace Invocation

variable {m m' : Machine} {p : Project} {place : List String} {invocation : Invocation}

/-- **What the invocation writes is not read** by a scan of the folder. -/
structure WritesAside (invocation : Invocation) (m : Machine) (place : List String) : Prop where
  /-- The reports are outside of the folder. -/
  reports : ∀ p q x, invocation.Scans m p → m.IsReportPath p q →
    m.disk.settled q = .ok ⟨.root, x⟩ → ¬place <+: x
  /-- The page of a project is not a link. -/
  pages : ∀ p root, invocation.Scans m p → m.disk.EndsIn (.ofString p.path) root →
    ∀ target, m.disk.top.find? (root ++ ["SECURITY.md"]) ≠ some (.link target)
  /-- What is written or made in the folder has a path that is not too long to ask about. -/
  short : ∀ q names, invocation.Writes m q ∨ invocation.Makes m q →
    m.disk.settled q = .ok ⟨.root, place ++ names⟩ →
    Disk.isTooLong ⟨.root, place ++ names⟩ = false
  /-- It is nothing that the ignore files and the package file lead to or past, unless it is a
  folder that is there. -/
  led : ∀ name ∈ askedFor, ∀ q x, invocation.Writes m q ∨ invocation.Makes m q →
    m.disk.settled q = .ok ⟨.root, x⟩ → m.disk.Asks ⟨.root, place ++ [name]⟩ x →
    ∃ entries, m.disk.top.find? x = some (.folder entries)

theorem isUnread_page {place names root : List String}
    (h : place ++ names = root ++ ["SECURITY.md"]) : isUnread (names.getLastD "") = true := by
  rcases List.eq_nil_or_concat names with rfl | ⟨front, last, rfl⟩
  · decide +kernel
  · rw [List.concat_eq_append, ← List.append_assoc] at h
    obtain ⟨-, hlast⟩ := List.append_inj' h rfl
    obtain rfl := List.singleton_inj.1 hlast
    rw [List.concat_eq_append, List.getLastD_concat]
    decide +kernel

/-- **A scan leaves a project as the scanners see it**, if it writes aside. -/
theorem WritesAside.differsUnread {project : Option String} {all page json : Bool}
    (h : (Invocation.scan project all page json).WritesAside m place) (hd : m.disk.Sound)
    (halters : m.Alters m' ((Invocation.scan project all page json).Writes m)
      ((Invocation.scan project all page json).Makes m)) :
    m.disk.DiffersUnread m'.disk place := by
  refine halters.disk.differsUnread hd ?_ h.short h.led
  intro q names bytes hwrites hleads
  cases hwrites with
  | @report _ p _ scans path =>
    have hsettled := halters.disk.settled_of_leadsTo (hd.straight_origin q) hleads
    exact absurd (List.prefix_append place names) (h.reports p q _ scans path hsettled)
  | @page _ _ _ p scans =>
    obtain ⟨root, hroot⟩ := scans.exists_endsIn hd
    have hname : IsEntryName "SECURITY.md" := by
      refine ⟨⟨?_, ?_, ?_⟩, ?_, ?_⟩ <;> decide
    rw [Report.below_of_isEntryName hname] at hleads
    refine isUnread_page ((hroot.of_grows halters.disk.here halters.disk.grows).eq_of_leadsTo
      hname.1 (fun target hlink => ?_) hleads)
    exact h.pages p root scans hroot target (halters.disk.links hlink)

end Invocation

section Results

open ProjectScanner

variable {m : Machine} {p : Project} {r : Report} {place : List String} {project : Path}

/-- A folder that differs in unread files only is found again, and the same is found in it. -/
theorem Disk.EndsIn.gather_eq (hends : m.disk.EndsIn project place) (hd : m.disk.Sound)
    (m' : Machine) (hdiffers : m.disk.DiffersUnread m'.disk place) (hdistinct : m'.disk.Distinct)
    (htool : m'.auditTool = m.auditTool) :
    m'.disk.resolve project = .ok ⟨.root, place⟩ ∧
      gather standard m' ⟨.root, place⟩ = gather standard m ⟨.root, place⟩ := by
  obtain ⟨entries, hfolder⟩ := hends.folder
  have hstraight := hends.straight hd
  refine ⟨hdiffers.resolve_eq hd.named hstraight hfolder (hends.resolve_eq hd), ?_⟩
  exact hdiffers.gather_eq htool hd.named hdistinct hstraight hfolder
    ((hends.self hd).resolve_eq hd)

/-- **Each report of a scan that writes aside** is on what is found before the scan. -/
theorem Completes.exists_ofFindings {target : Option String} {all page json : Bool}
    {projects : List Project} {results : List (Project × Report)} {last : Machine}
    (h : Completes standardScan target all page m projects results last) (hd : m.disk.Sound)
    (haside : (Invocation.scan target all page json).WritesAside m place)
    (hresult : (p, r) ∈ results) (hends : m.disk.EndsIn (.ofString p.path) place) :
    ∃ now ms, Report.ofFindings ⟨.root, place⟩ now (gather standard m ⟨.root, place⟩) ms =
      .ok r := by
  obtain ⟨start, next, halters, hdistinct, hscan⟩ := h.exists_start json hd.distinct hresult
  obtain ⟨root, now, ms, hroot, -, hreport⟩ := ofFindings_of_scanProject hscan
  have hdiffers := haside.differsUnread hd halters
  obtain ⟨hresolve, hgather⟩ :=
    hends.gather_eq hd start.afterReading hdiffers hdistinct halters.auditTool_eq
  obtain rfl := Except.ok.inj (hresolve.symm.trans hroot)
  rw [hgather] at hreport
  exact ⟨now, ms, hreport⟩

end Results

/-- **Files that are not read have no influence on scans.** On two disks that differ, in a folder,
in unread files only, scans of the folder have the same results. And so have two runs of the program
that scan a project and write pages, one after the other, if they write aside of the project. -/
theorem rescan_sameResult :
    (∀ {m m' : Machine} {project : Path} {place : List String}, m.disk.Sound →
      m'.disk.Distinct → m.disk.EndsIn project place → m.disk.DiffersUnread m'.disk place →
      m'.auditTool = m.auditTool → m.Timed → m'.Timed →
      ∃ r r', ((standardScan project).run m).1 = .ok r ∧
        ((standardScan project).run m').1 = .ok r' ∧ r.SameResult r') ∧
    ∀ {args : List String} {target : Option String} {all json : Bool} {m m₁ m₂ m₃ : Machine}
      {output errors output' errors' : String} {printed printed' : List Printed},
      Invocation.ofArguments? args = some (.scan target all true json) → m.disk.Sound →
      run standardScan args m = (.ended 0 output errors printed none, m₁) →
      m₂.disk = m₁.disk → m₂.auditTool = m₁.auditTool →
      run standardScan args m₂ = (.ended 0 output' errors' printed' none, m₃) →
      ∃ projects projects' results results',
        Completes standardScan target all true m projects results m₁ ∧
        Completes standardScan target all true m₂ projects' results' m₃ ∧
        (errors = "" → results.map Prod.fst = projects) ∧
        (errors' = "" → results'.map Prod.fst = projects') ∧
        ∀ p r p' r' place, (p, r) ∈ results → (p', r') ∈ results' → p'.path = p.path →
          m.disk.EndsIn (.ofString p.path) place →
          (Invocation.scan target all true json).WritesAside m place →
          (Invocation.scan target all true json).WritesAside m₂ place → r.SameResult r' := by
  constructor
  · intro m m' project place hd hdistinct hends hdiffers htool htimed htimed'
    obtain ⟨hresolve, hgather⟩ := Disk.EndsIn.gather_eq (m := m.afterReading) hends hd
      m'.afterReading hdiffers hdistinct htool
    obtain ⟨now, ms, r, hr, hrun⟩ := htimed.scanProject_ok ProjectScanner.standard
      (hends.resolve_eq hd)
    obtain ⟨now', ms', r', hr', hrun'⟩ := htimed'.scanProject_ok ProjectScanner.standard hresolve
    rw [hgather] at hr'
    exact ⟨r, r', hrun, hrun', Report.sameResult_of_ofFindings hr hr'⟩
  · intro args target all json m m₁ m₂ m₃ output errors output' errors' printed printed' hargs hd
      hrun hdisk htool hrun'
    obtain ⟨projects, results, hcompletes, hall, -⟩ := completes_of_run hargs hrun
    obtain ⟨projects', results', hcompletes', hall', -⟩ := completes_of_run hargs hrun'
    refine ⟨projects, projects', results, results', hcompletes, hcompletes', hall, hall', ?_⟩
    intro p r p' r' place hresult hresult' hpath hends haside haside'
    -- The first run alters nothing that is read, so the second one starts from the same.
    have halters : m.Alters (run standardScan args m).2 _ _ := run_alters_scan m hargs
    rw [hrun] at halters
    have hd' := halters.disk.sound hd (hcompletes.scanned.distinct hd.distinct)
      fun q => Invocation.slashFree_of_writes
    have hdiffers := haside.differsUnread hd halters
    have hends' := hends.of_grows halters.disk.here halters.disk.grows
    rw [← hdisk] at hd' hdiffers hends'
    rw [halters.auditTool_eq] at htool
    obtain ⟨-, hgather⟩ := hends.gather_eq hd m₂ hdiffers hd'.distinct htool
    rw [← hpath] at hends'
    obtain ⟨now, ms, hr⟩ := hcompletes.exists_ofFindings hd haside hresult hends
    obtain ⟨now', ms', hr'⟩ := hcompletes'.exists_ofFindings hd' haside' hresult' hends'
    rw [hgather] at hr'
    exact Report.sameResult_of_ofFindings hr hr'

/-! ## A plain project -/

section Plain

open Command Node

theorem endsIn_plainMachine : plainMachine.disk.EndsIn ⟨.root, ["p"]⟩ ["p"] := by
  have hlocate : plainMachine.disk.locate ⟨.root, ["p"]⟩ .target =
      .ok (.found ["p"] (.folder [("go.mod", .file [])])) := rfl
  exact Disk.endsIn_of_locate hlocate

/-- Without links, a walk along names asks about what is on the way only. -/
theorem asks_of_unlinked {top : Node} {here todo x : List String}
    (hlinks : ∀ names target, top.find? names ≠ some (.link target))
    (htodo : ∀ name ∈ todo, IsPlain name) (h : Asks top here todo x) :
    ∃ front, front <+: todo ∧ front ≠ [] ∧ x = here.reverse ++ front := by
  induction h with
  | @name here rest name plain => exact ⟨[name], by simp, by simp, by simp⟩
  | @step here next rest x name step more ih =>
    obtain ⟨hname, hrest⟩ := List.forall_mem_cons.1 htodo
    cases step with
    | stay dot => exact absurd dot hname.not_dot
    | up dots => exact absurd dots hname.2.2
    | down =>
      obtain ⟨front, hfront, hne, rfl⟩ := ih hrest
      exact ⟨name :: front, by simpa using hfront, by simp, by simp⟩
  | follow link => exact absurd link.2 (hlinks _ _)

variable {m : Machine} {x : List String} {q : Path}

/-- The paths at which a scan of the project writes and makes. -/
def plainPaths : List Path :=
  [⟨.root, ["store", "reports", "p-1970-01-01.json"]⟩, ⟨.root, ["p", "SECURITY.md"]⟩, ⟨.root, []⟩,
    ⟨.root, ["store"]⟩, ⟨.root, ["store", "reports"]⟩]

/-- A machine with the project, perhaps after scans of it. -/
structure KeepsPlain (m : Machine) : Prop where
  alters : ∃ written made, plainMachine.Alters m written made
  load : Config.load m = .ok {}
  find : Project.find? m {} "p" = .ok (some (Project.plain ⟨.root, ["p"]⟩))

namespace KeepsPlain

variable (h : KeepsPlain m)
include h

theorem eq_of_scans {p : Project} (hp : (Invocation.scan (some "p") false true true).Scans m p) :
    p = Project.plain ⟨.root, ["p"]⟩ := by
  cases hp with
  | one load find =>
    obtain rfl := Except.ok.inj (h.load.symm.trans load)
    exact (Option.some.inj (Except.ok.inj (h.find.symm.trans find))).symm

theorem reportsFolder_eq {folder : Path} (hfolder : m.reportsFolder = .ok folder) :
    folder = ⟨.root, ["store", "reports"]⟩ := by
  obtain ⟨written, made, halters⟩ := h.alters
  rw [halters.reportsFolder_eq] at hfolder
  cases hfolder
  rfl

theorem eq_of_isReportPath {p : Project}
    (hp : (Invocation.scan (some "p") false true true).Scans m p) (hq : m.IsReportPath p q) :
    q = ⟨.root, ["store", "reports", "p-1970-01-01.json"]⟩ := by
  obtain ⟨written, made, halters⟩ := h.alters
  obtain rfl := h.eq_of_scans hp
  obtain ⟨folder, root, now, r, hfolder, hroot, hnow, hproject, hday, rfl⟩ := hq
  rw [halters.disk.settled_eq] at hroot
  rw [halters.now_eq] at hnow
  have hsettled : plainMachine.disk.settled (.ofString "/p") = .ok ⟨.root, ["p"]⟩ := by
    decide +kernel
  have htext : plainMachine.now.map (·.date.text) = .ok "1970-01-01" := by decide +kernel
  obtain rfl := Except.ok.inj (hsettled.symm.trans hroot)
  rw [hnow] at htext
  have hdate : now.date.text = "1970-01-01" := Except.ok.inj htext
  rw [h.reportsFolder_eq hfolder, Report.fileName, hproject, hday, hdate]
  decide +kernel

theorem mem_plainPaths (hq : (Invocation.scan (some "p") false true true).Writes m q ∨
    (Invocation.scan (some "p") false true true).Makes m q) : q ∈ plainPaths := by
  rcases hq with hwrites | hmakes
  · cases hwrites with
    | report scans path =>
      rw [h.eq_of_isReportPath scans path]
      decide
    | page scans =>
      rw [h.eq_of_scans scans]
      decide +kernel
  · cases hmakes with
    | reports _ folder_eq onWay =>
      obtain rfl := h.reportsFolder_eq folder_eq
      obtain ⟨anchor, names⟩ := q
      obtain ⟨rfl, hnames⟩ := onWay
      simp only [List.prefix_cons_iff, List.prefix_nil] at hnames
      rcases hnames with rfl | ⟨_, rfl, rfl | ⟨_, rfl, rfl⟩⟩ <;> decide

theorem eq_of_settled (hq : q ∈ plainPaths) (hx : m.disk.settled q = .ok ⟨.root, x⟩) :
    q = ⟨.root, x⟩ := by
  obtain ⟨written, made, halters⟩ := h.alters
  have hself : ∀ q ∈ plainPaths, plainMachine.disk.settled q = .ok q := by decide +kernel
  rw [halters.disk.settled_eq, hself q hq] at hx
  exact Except.ok.inj hx

theorem ne_link (names : List String) (target : String) :
    m.disk.top.find? names ≠ some (.link target) := by
  obtain ⟨written, made, halters⟩ := h.alters
  exact fun hlink => plainMachine_ne_link names target (halters.disk.links hlink)

theorem writesAside : (Invocation.scan (some "p") false true true).WritesAside m ["p"] where
  reports p q x hp hq hx hprefix := by
    obtain rfl := h.eq_of_isReportPath hp hq
    cases h.eq_of_settled (by decide) hx
    exact absurd hprefix (by decide)
  pages p root _ _ := h.ne_link _
  short q names hq hx := by
    have hpath := h.mem_plainPaths hq
    have hshort : ∀ q ∈ plainPaths, Disk.isTooLong q = false := by decide +kernel
    rw [← h.eq_of_settled hpath hx]
    exact hshort q hpath
  led name hname q x hq hx hasks := by
    have hpath := h.mem_plainPaths hq
    have hplain : ∀ name ∈ askedFor, ∀ part ∈ ["p", name], IsPlain part := by
      simp [askedFor, IgnoreRules.fileNames, IsPlain]
    obtain ⟨front, hfront, hne, rfl⟩ := asks_of_unlinked h.ne_link (hplain name hname) hasks
    rw [h.eq_of_settled hpath hx] at hpath
    -- Neither the project nor a file in it that is asked for is written or made.
    have hnone : ∀ name ∈ askedFor, ∀ front ∈ [["p"], ["p", name]],
        (⟨.root, front⟩ : Path) ∉ plainPaths := by decide
    simp only [List.prefix_cons_iff, List.prefix_nil] at hfront
    rcases hfront with rfl | ⟨_, rfl, rfl | ⟨_, rfl, rfl⟩⟩
    · exact absurd rfl hne
    · exact absurd hpath (hnone name hname _ (by simp))
    · exact absurd hpath (hnone name hname _ (by simp))

end KeepsPlain

theorem KeepsPlain.exists_result {m last : Machine} (h : KeepsPlain m) {projects : List Project}
    {results : List (Project × Report)}
    (hcompletes : Completes standardScan (some "p") false true m projects results last)
    (hall : results.map Prod.fst = projects) :
    ∃ r, projects = [Project.plain ⟨.root, ["p"]⟩] ∧
      results = [(Project.plain ⟨.root, ["p"]⟩, r)] := by
  obtain ⟨config, hload, htargets⟩ := hcompletes.targets
  obtain rfl := Except.ok.inj (h.load.symm.trans hload)
  cases htargets with
  | one find =>
    obtain rfl := Option.some.inj (Except.ok.inj (h.find.symm.trans find))
    obtain ⟨⟨p, r⟩, rfl, rfl⟩ := List.map_eq_singleton_iff.1 hall
    exact ⟨r, rfl, rfl⟩

/-- A project that is scanned before and after a run of the program that writes its page, and two
runs of the program one after the other. -/
theorem rescan_sameResult_plain :
    let args := ["scan", "p", "--update-security-md", "--json"]
    let m₁ := (run standardScan args plainMachine).2
    let p := Project.plain ⟨.root, ["p"]⟩
    (∃ r r', ((standardScan ⟨.root, ["p"]⟩).run plainMachine).1 = .ok r ∧
      ((standardScan ⟨.root, ["p"]⟩).run m₁).1 = .ok r' ∧ r.SameResult r') ∧
    ∃ r r' m₃, Completes standardScan (some "p") false true plainMachine [p] [(p, r)] m₁ ∧
      Completes standardScan (some "p") false true m₁ [p] [(p, r')] m₃ ∧ r.SameResult r' := by
  intro args m₁ p
  have hargs : Invocation.ofArguments? args = some (.scan (some "p") false true true) := by
    decide +kernel
  have halters : plainMachine.Alters m₁ _ _ := run_alters_scan plainMachine hargs
  have hkeeps : KeepsPlain plainMachine :=
    ⟨⟨_, _, .refl _ (fun _ => False) (fun _ => False)⟩, load_rootMachine, find?_rootMachine⟩
  obtain ⟨hclean, hload₁, hfind₁, hclean₁⟩ :
      (run standardScan args plainMachine).1.isClean = true ∧ Config.load m₁ = .ok {} ∧
      Project.find? m₁ {} "p" = .ok (some p) ∧ (run standardScan args m₁).1.isClean = true := by
    decide +kernel
  have hkeeps₁ : KeepsPlain m₁ := ⟨⟨_, _, halters⟩, hload₁, hfind₁⟩
  obtain ⟨output, printed, hrun⟩ := Outcome.exists_of_isClean hclean
  obtain ⟨output₁, printed₁, hrun₁⟩ := Outcome.exists_of_isClean hclean₁
  obtain ⟨projects, projects', results, results', hcompletes, hcompletes', hall, hall', hsame⟩ :=
    rescan_sameResult.2 hargs sound_plainMachine hrun rfl rfl hrun₁
  obtain ⟨r, rfl, rfl⟩ := hkeeps.exists_result hcompletes (hall rfl)
  obtain ⟨r', rfl, rfl⟩ := hkeeps₁.exists_result hcompletes' (hall' rfl)
  have hstanding (m : Machine) (h : plainMachine.Alters m (fun _ => True) fun _ => True) :
      m.Timed := by
    obtain ⟨disk, taken, rfl⟩ := h.rest
    exact Machine.timed_of_standing (exists_now_of_clock rfl) rfl
  refine ⟨rescan_sameResult.1 sound_plainMachine (hcompletes.scanned.distinct
    sound_plainMachine.distinct) endsIn_plainMachine (hkeeps.writesAside.differsUnread
      sound_plainMachine halters) halters.auditTool_eq ?_ ?_, r, r', _, hcompletes, hcompletes', ?_⟩
  · exact hstanding _ (.refl _ _ _)
  · exact hstanding _ (halters.mono (fun _ _ => trivial) fun _ _ => trivial)
  · refine hsame p r p r' ["p"] List.mem_cons_self List.mem_cons_self rfl ?_ hkeeps.writesAside
      hkeeps₁.writesAside
    have hpath : Path.ofString p.path = ⟨.root, ["p"]⟩ := by decide +kernel
    rw [hpath]
    exact endsIn_plainMachine

/-- The project with ignore rules in another file, which a link leads to. -/
def linkedRules (rules : String) : Machine :=
  rootMachine [("p", .folder [(".gitignore", .link "rules.txt"),
    ("a.py", .file (Text.Utf8.encode "k = 'AKIAM3N7B2V9C4X8Z1LK'".toList)),
    ("rules.txt", .file (Text.Utf8.encode rules.toList))])]

/-- A file that no scanner looks for has an influence on the findings: a link of the name of an
ignore file leads to it. -/
theorem rescan_linkedRules :
    isUnread "rules.txt" = true ∧ "rules.txt" ∉ askedFor ∧
    (((standardScan ⟨.root, ["p"]⟩).run (linkedRules "")).1.toOption.map fun r =>
      r.findings.length) = some 1 ∧
    (((standardScan ⟨.root, ["p"]⟩).run (linkedRules "a.py")).1.toOption.map fun r =>
      r.findings.length) = some 0 := by
  decide +kernel

end Plain

end WorkspaceAudit
