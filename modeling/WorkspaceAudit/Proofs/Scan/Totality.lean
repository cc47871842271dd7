import WorkspaceAudit.Proofs.Files.Walking
import WorkspaceAudit.Proofs.Report.RoundTrip
import WorkspaceAudit.Proofs.Scan.Pruning
import WorkspaceAudit.Proofs.Scan.Suppression

/-!
# Scans of projects give findings

A scan of a folder that is there resolves its path, reads its ignore files, walks below it, and
reads, resolves and searches each file. None of this fails, whatever the folder holds, but for one
thing: a path that is too long to ask about.

- `Disk.resolve_project`: the path of a folder that is there resolves, and what it resolves to
  stays.
- `Disk.Collects.find?`: what is read under the path of a collected file is that file.
- `RuleSet.line_of_mem_scanContent`, `RuleSet.check_of_mem_scanContent`: findings are on lines of
  the text, and pass the check of stored findings.
- `RuleSet.scanProject_total`: all of this for a project.
-/

namespace WorkspaceAudit

namespace Disk

open Node (Straight)

variable {d : Disk} {project : Path} {below : List String}

/-- **The path of a folder that is there resolves**, and what it resolves to stays as it is. -/
theorem resolve_project (hdisk : d.top.Named IsEntryName) (hhere : Straight d.top d.here.reverse)
    (hproject : d.isFolder? project = .ok true) :
    ∃ names, d.resolve project = .ok ⟨.root, names⟩ ∧ Straight d.top names.reverse ∧
      d.resolve ⟨.root, names⟩ = .ok ⟨.root, names⟩ := by
  obtain ⟨names, entries, hlocate⟩ := exists_locate_of_isFolder? hproject
  have horigin : Straight d.top (d.origin project) := by
    unfold origin
    split
    · exact hhere
    · exact .root
  obtain ⟨-, hnode, n, -, hleads⟩ := locate_leads hlocate
  have hstraight : Straight d.top names.reverse := hleads.straight horigin
  have hnul : hasNul ⟨.root, names⟩ = false := by
    rw [hasNul, List.any_eq_false]
    intro name hname
    simpa using (hdisk.forall_of_find? hnode name hname).2.2
  exact ⟨names, resolve_located horigin hlocate, hstraight, resolve_of_straight hstraight hnul⟩

/-- A path without links leads to its own names. -/
theorem names_of_locate {place names : List String} {node : Node}
    (hplace : Straight d.top place.reverse)
    (h : d.locate ⟨.root, place⟩ .target = .ok (.found names node)) : names = place := by
  obtain ⟨-, -, n, -, hleads⟩ := locate_leads h
  have hstart := hplace.leads
  rw [List.reverse_reverse] at hstart
  exact List.reverse_inj.1 (hleads.unique hstart).2

/-- **What is read under the path of a collected file is that file.** -/
theorem Collects.find? {sel : Selection} {place : List String} {bytes : List UInt8}
    (h : d.Collects sel ⟨.root, place⟩ below) (hdisk : d.top.Named IsEntryName)
    (hplace : Straight d.top place.reverse)
    (hread : d.readBytes (Path.extend ⟨.root, place⟩ below) = .ok bytes) :
    d.top.find? (place ++ below) = some (.file bytes) := by
  obtain ⟨names, node, content, hroot, hfile⟩ := h.file
  obtain ⟨-, hnode, n, -, hleads⟩ := locate_leads hroot
  obtain rfl := names_of_locate hplace hroot
  have hplain : ∀ name ∈ below, Node.IsPlain name := fun name hname =>
    ((hdisk.find? hnode).forall_of_find? hfile name hname).1
  have hdown : Node.Leads d.top names.reverse below 0 (below.reverse ++ names.reverse) :=
    Node.leads_of_find? (by simpa using hnode) hfile hplain (by simp)
  obtain ⟨there, hlocate⟩ : ∃ there, d.locate (Path.extend ⟨.root, names⟩ below) .target =
      .ok (.found there (.file bytes)) := by
    unfold readBytes at hread
    split at hread
    · cases hread
    split at hread <;> cases hread
    exact ⟨_, ‹_›⟩
  obtain ⟨-, hthere, m, -, hleads'⟩ := locate_leads hlocate
  have hsame := (hleads'.unique (hleads.append hdown)).2
  rw [← List.reverse_append, List.reverse_inj] at hsame
  rwa [hsame] at hthere

end Disk

namespace RuleSet

variable {set : RuleSet} {d : Disk} {path : String} {content : List Char} {f : Finding}

/-- **Findings are on lines of the text.** -/
theorem line_of_mem_scanContent (h : f ∈ set.scanContent path content) :
    ∃ n, f.location = .line path n ∧ 1 ≤ n ∧ n ≤ content.count '\n' + 1 := by
  obtain ⟨rule, hrule, hit, hhit, -, rfl⟩ := exists_hit_of_mem_scanContent h
  obtain ⟨front, line, hmatches⟩ := exists_matches hrule hhit
  refine ⟨front.count '\n' + 1, ?_, by omega, ?_⟩
  · rw [location_report, judged, hmatches.candidate_eq.1]
    rfl
  · rw [hmatches.content_eq, List.count_append]
    omega

theorem lone_of_mem_scanContent (h : f ∈ set.scanContent path content) : f.lone = none := by
  obtain ⟨rule, -, hit, -, -, rfl⟩ := exists_hit_of_mem_scanContent h
  have hplain (c : Candidate) (verdict : Verdict) : (set.finding c verdict).lone = none := by
    cases verdict <;> rfl
  unfold report
  split
  · exact hplain _ _
  · exact hplain _ _

/-- **Findings pass the check of stored findings.** -/
theorem check_of_mem_scanContent (h : f ∈ set.scanContent path content) :
    Finding.check f.toJson = .ok f := by
  obtain ⟨n, hlocation, hpos, -⟩ := line_of_mem_scanContent h
  refine Finding.check_toJson ⟨lone_of_mem_scanContent h, fun m hm => ?_⟩
  rw [hlocation] at hm
  obtain rfl := Option.some.inj hm
  exact hpos

/-- A finding in a file below a folder is one in the text of its bytes. -/
theorem mem_findingsBelow {root : Path} {names : List String} :
    f ∈ set.findingsBelow d root names ↔ ∃ bytes, d.readBytes (root.extend names) = .ok bytes ∧
      f ∈ set.scanContent (Selection.pathText names) (Text.Utf8.decodeLossy bytes) := by
  unfold findingsBelow Disk.readSource
  cases d.readBytes (root.extend names) with
  | error fault => simp [Except.map]
  | ok bytes => simp [Except.map]

/-- **A scan of a project gives findings**, whatever the project holds, unless the walk below it
comes to a path that is too long to ask about: then it ends with that fault, and with no other in
any case. The findings are those in the texts of the collected files that can be read. Each of them
passes the check of stored findings, names its file by its path below the project, and is on a line
of it. -/
theorem scanProject_total (set : RuleSet) (d : Disk) (project : Path)
    (hdisk : d.top.Named IsEntryName) (hhere : Node.Straight d.top d.here.reverse)
    (hproject : d.isFolder? project = .ok true) :
    ∃ root, d.resolve project = .ok root ∧
      (d.MeetsTooLong (set.selection (d.ignoreRules root)) root →
        set.scanProject d project = .error .nameTooLong) ∧
      (¬d.MeetsTooLong (set.selection (d.ignoreRules root)) root →
        ∃ findings, set.scanProject d project = .ok findings ∧
          (∀ f, f ∈ findings ↔ ∃ names bytes,
            d.Collects (set.selection (d.ignoreRules root)) root names ∧
            d.readBytes (root.extend names) = .ok bytes ∧
            f ∈ set.scanContent (Selection.pathText names) (Text.Utf8.decodeLossy bytes)) ∧
          ∀ f ∈ findings, Finding.check f.toJson = .ok f ∧ ∃ names bytes n,
            d.Collects (set.selection (d.ignoreRules root)) root names ∧
            d.top.find? (root.names ++ names) = some (.file bytes) ∧
            f.location = .line (Selection.pathText names) n ∧
            1 ≤ n ∧ n ≤ (Text.Utf8.decodeLossy bytes).count '\n' + 1) := by
  obtain ⟨place, hresolve, hstraight, hself⟩ := Disk.resolve_project hdisk hhere hproject
  refine ⟨⟨.root, place⟩, hresolve, ?_⟩
  have hscan : set.scanProject d project =
      (d.collect (set.selection (d.ignoreRules ⟨.root, place⟩)) ⟨.root, place⟩).bind fun found =>
        set.scanFiles d found.1 (found.2.map found.1.extend) := by
    simp only [scanProject, hresolve, bind, Except.bind]
  rw [hscan]
  -- Collecting fails for a name that is too long and for nothing else.
  rcases Disk.collect_of_resolve (set.selection (d.ignoreRules ⟨.root, place⟩)) hdisk hself with
    ⟨hlong, hcollect⟩ | ⟨hshort, files, hcollect, hmem, -⟩
  · rw [hcollect]
    exact ⟨fun _ => rfl, fun hshort => absurd hlong hshort⟩
  refine ⟨fun hlong => absurd hlong hshort, fun _ => ?_⟩
  have hall : ∀ f, f ∈ files.flatMap (set.findingsBelow d ⟨.root, place⟩) ↔ ∃ names bytes,
      d.Collects (set.selection (d.ignoreRules ⟨.root, place⟩)) ⟨.root, place⟩ names ∧
      d.readBytes (Path.extend ⟨.root, place⟩ names) = .ok bytes ∧
      f ∈ set.scanContent (Selection.pathText names) (Text.Utf8.decodeLossy bytes) := by
    intro f
    simp only [List.mem_flatMap, hmem, mem_findingsBelow, exists_and_left]
  refine ⟨files.flatMap (set.findingsBelow d ⟨.root, place⟩), ?_, hall, fun f hfound => ?_⟩
  · rw [hcollect]
    refine scanFiles_collected hdisk (Disk.resolve_anchor hself) hself fun names hnames => ?_
    have hcollects := (hmem names).1 hnames
    exact ⟨hcollects.below, hcollects.file⟩
  · obtain ⟨names, bytes, hcollects, hread, hf⟩ := (hall f).1 hfound
    obtain ⟨n, hlocation, hpos, hlast⟩ := line_of_mem_scanContent hf
    exact ⟨check_of_mem_scanContent hf, names, bytes, n, hcollects,
      hcollects.find? hdisk hstraight hread, hlocation, hpos, hlast⟩

/-- A disk with a project that is reached by a link, and that holds bytes that are no text, a file
that cannot be opened, a link out of it and one that leads to itself. -/
def roughDisk : Disk where
  top := .folder [("w", .folder [
    ("q", .link "p"),
    ("p", .folder [
      (".gitignore", .file [0xff, 0x0a, 0x5b]),
      ("a.py", .file ([0xff, 0x0a] ++ Text.Utf8.encode "k='AKIAM3N7B2V9C4X8Z1LK'".toList)),
      ("b.py", .file []),
      ("out", .link "../.."),
      ("self", .link "self")])])]
  here := ["w"]
  closed := ["/w/p/b.py"]

theorem named_roughDisk : roughDisk.top.Named IsEntryName := by
  have hnames : ∀ name ∈ ["w", "q", "p", ".gitignore", "a.py", "b.py", "out", "self"],
      IsEntryName name := by
    simp [IsEntryName, Node.IsPlain]
  refine .folder (by simp) (by simpa using hnames "w" (by simp)) (List.forall_mem_singleton.2 ?_)
  refine .folder (by simp) (fun entry h => hnames _ ?_) ?_
  · revert entry
    simp
  simp only [List.forall_mem_cons]
  refine ⟨.link _, .folder (by simp) (fun entry h => hnames _ ?_) ?_, by simp⟩
  · revert entry
    simp
  simp only [List.forall_mem_cons]
  exact ⟨.file _, .file _, .file _, .link _, .link _, by simp⟩

theorem scanProject_roughDisk :
    ∃ findings, secrets.scanProject roughDisk ⟨.here, ["q"]⟩ = .ok findings ∧ findings ≠ [] ∧
      ∀ f ∈ findings, Finding.check f.toJson = .ok f ∧ ∃ names bytes n,
        roughDisk.top.find? (["w", "p"] ++ names) = some (.file bytes) ∧
        f.location = .line (Selection.pathText names) n ∧
        1 ≤ n ∧ n ≤ (Text.Utf8.decodeLossy bytes).count '\n' + 1 := by
  have hhere : Node.Straight roughDisk.top roughDisk.here.reverse :=
    .down .root (by simp [Node.IsPlain]) rfl (by simp)
  obtain ⟨root, hresolve, hlong, hshort⟩ :=
    scanProject_total secrets roughDisk ⟨.here, ["q"]⟩ named_roughDisk hhere rfl
  have hroot : roughDisk.resolve ⟨.here, ["q"]⟩ = .ok ⟨.root, ["w", "p"]⟩ := rfl
  obtain rfl := Except.ok.inj (hroot.symm.trans hresolve)
  have hfound : ((secrets.scanProject roughDisk ⟨.here, ["q"]⟩).toOption.any (· ≠ [])) = true := by
    decide +kernel
  obtain ⟨findings, hscan, -, hfindings⟩ := hshort fun h => by
    rw [hlong h] at hfound
    cases hfound
  refine ⟨findings, hscan, ?_, fun f hf => ?_⟩
  · rw [hscan] at hfound
    exact of_decide_eq_true hfound
  · obtain ⟨hcheck, names, bytes, n, -, hfile, hline⟩ := hfindings f hf
    exact ⟨hcheck, names, bytes, n, hfile, hline⟩

/-- **A path that is too long ends the scan**, though there is a secret in a file beside it. -/
theorem scanProject_ne_ok : ∃ name, IsEntryName name ∧
    let text := "k='AKIAM3N7B2V9C4X8Z1LK'".toList
    let d := Disk.deepDisk name (Text.Utf8.encode text)
    d.top.Named IsEntryName ∧ Node.Straight d.top d.here.reverse ∧
      d.isFolder? ⟨.root, []⟩ = .ok true ∧ secrets.scanContent "a.py" text ≠ [] ∧
      ∀ findings, secrets.scanProject d ⟨.root, []⟩ ≠ .ok findings := by
  obtain ⟨name, hname⟩ := exists_isLongName
  refine ⟨name, hname.entry, ?_⟩
  intro text d
  have hroot : d.resolve ⟨.root, []⟩ = .ok ⟨.root, []⟩ := rfl
  have hrules : d.ignoreRules ⟨.root, []⟩ = [] := rfl
  refine ⟨Disk.named_deepDisk hname.entry _, .root, rfl, by decide +kernel, fun findings h => ?_⟩
  have hcollect : d.collect (secrets.selection []) ⟨.root, []⟩ = .error .nameTooLong :=
    Disk.collect_deepDisk hname _ (fun _ => rfl) rfl
  simp only [scanProject, hroot, hrules, hcollect, bind, Except.bind] at h
  cases h

end RuleSet

end WorkspaceAudit
