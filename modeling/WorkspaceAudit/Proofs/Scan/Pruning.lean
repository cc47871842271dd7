import WorkspaceAudit.Proofs.Files.Collecting
import WorkspaceAudit.Proofs.Ignore.Rules
import WorkspaceAudit.Proofs.Scan.Survivors
import WorkspaceAudit.Scan.Files

/-!
# Ignored folders and ignored findings

A project is scanned without going into ignored folders. This gives the findings of all files
without those in files that are ignored themselves.

- `RuleSet.scanLeavingOut`: the findings in a project, without the paths of a given kind. A scan of
  a project leaves out what its ignore files say.
- `RuleSet.scanFiles_collected`: the findings in collected files, told without faults: each
  collected file is below the folder, and one that cannot be read has none.
- `RuleSet.scanLeavingOut_eq_filter`: leaving paths out is filtering the findings, if the walk that
  leaves nothing out comes to an end.
- `RuleSet.scanProject_eq_filter`: so it is for a project, and more ignore lines only take findings
  away.
-/

namespace WorkspaceAudit

/-- The finding is in a file whose path is of the kind. -/
def Finding.isIn (f : Finding) (ignored : String → Bool) : Bool :=
  f.location.path?.any ignored

theorem Finding.isIn_of_imp (f : Finding) {ignored ignored' : String → Bool}
    (himp : ∀ path, ignored path = true → ignored' path = true) (h : f.isIn ignored = true) :
    f.isIn ignored' = true := by
  rw [isIn, Option.any_eq_true] at h ⊢
  obtain ⟨path, hpath, h⟩ := h
  exact ⟨path, hpath, himp path h⟩

namespace RuleSet

variable {set : RuleSet} {d : Disk} {root : Path} {names : List String} {node : Node}

/-- The findings in the files below a folder, without those whose path or a folder of it is of a
kind that is left out. -/
def scanLeavingOut (set : RuleSet) (ignored : String → Bool) (d : Disk) (root : Path) :
    Except Fault (List Finding) := do
  let (root, files) ← d.collect { set.selection [] with ignored := ignored } root
  set.scanFiles d root (files.map root.extend)

/-- The findings in a file below a folder. One that cannot be read has none. -/
def findingsBelow (set : RuleSet) (d : Disk) (root : Path) (names : List String) : List Finding :=
  match d.readSource (root.extend names) with
  | .ok content => set.scanContent (Selection.pathText names) content
  | .error _ => []

theorem path_of_mem_scanContent {path : String} {content : List Char} {f : Finding}
    (h : f ∈ set.scanContent path content) : f.location.path? = some path := by
  obtain ⟨rule, -, hit, -, -, rfl⟩ := exists_hit_of_mem_scanContent h
  rw [location_report]
  rfl

theorem path_of_mem_findingsBelow {f : Finding} (h : f ∈ set.findingsBelow d root names) :
    f.location.path? = some (Selection.pathText names) := by
  unfold findingsBelow at h
  split at h
  · exact path_of_mem_scanContent h
  · cases h

/-- The path of names below a folder, as it is shown. -/
theorem relativeText_below {root below : List String} (hne : below ≠ [])
    (hbelow : ∀ name ∈ below, IsEntryName name) :
    Path.relativeText ⟨.root, root ++ below⟩ ⟨.root, root⟩ = .ok (Selection.pathText below) := by
  have htext : Selection.pathText below ≠ "" :=
    Selection.pathText_ne_empty hne fun name h => (hbelow name h).1.1
  have hplain : Path.plainText ⟨.here, below⟩ = Selection.pathText below := by
    simp [Path.plainText, Anchor.text, Selection.pathText]
  simp [Path.relativeText, Path.relativeTo?, Path.text, hplain, htext]

/-- **A collected file is scanned without a fault**, under its path below the folder. -/
theorem scanFile_collected {below : List String} {bytes : List UInt8}
    (hanchor : root.anchor ≠ .here) (hroot : d.locate root .target = .ok (.found names node))
    (hfound : node.find? below = some (.file bytes)) (hne : below ≠ [])
    (hbelow : ∀ name ∈ below, IsEntryName name) :
    set.scanFile d ⟨.root, names⟩ (root.extend below) = .ok (set.findingsBelow d root below) := by
  have hnul := Disk.hasNul_extend (Disk.locate_leads hroot).1 hbelow
  unfold scanFile findingsBelow
  cases hread : d.readSource (root.extend below) with
  | error fault => simp [Disk.readSource_error hnul hread]
  | ok content =>
    simp only [Disk.resolve_collected hanchor hroot hfound hbelow, bind, Except.bind,
      relativeText_below hne hbelow]
    rfl

theorem mapM_eq_ok {α β ε : Type} {f : α → Except ε β} {g : α → β} {xs : List α}
    (h : ∀ x ∈ xs, f x = .ok (g x)) : xs.mapM f = .ok (xs.map g) := by
  induction xs with
  | nil => rfl
  | cons x xs ih =>
    rw [List.mapM_cons, h x (by simp), ih fun y hy => h y (List.mem_cons_of_mem _ hy)]
    rfl

/-- Files with names that entries can have are scanned without a fault. -/
theorem scanFiles_located {place : Path} {files : List (List String)}
    (hanchor : root.anchor ≠ .here)
    (hroot : d.resolve root = .ok place)
    (hfiles : ∀ below ∈ files, below ≠ [] ∧ (∀ name ∈ below, IsEntryName name) ∧
      ∃ names node bytes, d.locate root .target = .ok (.found names node) ∧
        node.find? below = some (.file bytes)) :
    set.scanFiles d root (files.map root.extend) =
      .ok (files.flatMap (set.findingsBelow d root)) := by
  have hscan : (files.map root.extend).mapM (set.scanFile d place) =
      .ok (files.map (set.findingsBelow d root)) := by
    rw [List.mapM_map]
    refine mapM_eq_ok fun below hbelow => ?_
    obtain ⟨hne, hnames, names, node, bytes, hlocate, hfound⟩ := hfiles below hbelow
    obtain rfl := Except.ok.inj
      (hroot.symm.trans (Disk.resolve_located (Disk.straight_origin hanchor) hlocate))
    exact scanFile_collected hanchor hlocate hfound hne hnames
  simp only [scanFiles, hroot, bind, Except.bind, hscan, List.flatMap_def]
  rfl

/-- **Collected files are scanned without a fault**, if the folder resolves. -/
theorem scanFiles_collected {place : Path} {files : List (List String)}
    (hdisk : d.top.Named IsEntryName) (hanchor : root.anchor ≠ .here)
    (hroot : d.resolve root = .ok place)
    (hfiles : ∀ below ∈ files, below ≠ [] ∧ ∃ names node bytes,
      d.locate root .target = .ok (.found names node) ∧ node.find? below = some (.file bytes)) :
    set.scanFiles d root (files.map root.extend) =
      .ok (files.flatMap (set.findingsBelow d root)) := by
  refine scanFiles_located hanchor hroot fun below hbelow => ?_
  obtain ⟨hne, names, node, bytes, hlocate, hfound⟩ := hfiles below hbelow
  have hnode := hdisk.find? (Disk.locate_leads hlocate).2.1
  exact ⟨hne, hnode.forall_of_find? hfound, names, node, bytes, hlocate, hfound⟩

theorem filter_flatMap_findingsBelow {sel : Selection} (files : List (List String)) :
    (files.flatMap (set.findingsBelow d root)).filter (fun f => !f.isIn sel.ignored) =
      (files.filter sel.keeps).flatMap (set.findingsBelow d root) := by
  have hfile (names : List String) {f : Finding} (hf : f ∈ set.findingsBelow d root names) :
      (!f.isIn sel.ignored) = sel.keeps names := by
    simp [Finding.isIn, path_of_mem_findingsBelow hf, Selection.keeps]
  induction files with
  | nil => rfl
  | cons names files ih =>
    rw [List.flatMap_cons, List.filter_append, ih, List.filter_congr fun f => hfile names]
    cases hkeeps : sel.keeps names <;> simp [hkeeps]

/-- What is found below a path that resolves to a folder, told without faults: none but a path that
is too long ends the walk. -/
theorem scanLeavingOut_eq {ignored : String → Bool} {place : Path}
    (hdisk : d.top.Named IsEntryName) (hroot : d.resolve root = .ok place)
    (hfound : d.collectedNode? place = some node) :
    set.scanLeavingOut ignored d root =
      if d.asksTooLong { set.selection [] with ignored := ignored } place node then
        .error .nameTooLong
      else .ok (((d.listing { set.selection [] with ignored := ignored } place).collectBelow
        node).flatMap (set.findingsBelow d place)) := by
  obtain ⟨names, hlocate⟩ := Disk.collectedNode?_eq_some hfound
  have hentries := Disk.named_of_collectedNode? hdisk hfound
  simp only [scanLeavingOut, Disk.collect_eq _ hroot, hfound, Option.elim_some]
  split
  · rfl
  · have hanchor := Disk.resolve_anchor hroot
    refine scanFiles_collected hdisk hanchor
      (Disk.resolve_located (Disk.straight_origin hanchor) hlocate) fun below hbelow => ?_
    obtain ⟨bytes, hfile, hne, -⟩ := Selection.exists_file_of_mem_collectBelow hentries hbelow
    exact ⟨hne, names, node, bytes, hlocate, hfile⟩

/-- **Leaving paths out is filtering the findings**, if what lies below a path that is left out is
left out too, and if the scan that leaves nothing out meets no path that is too long. -/
theorem scanLeavingOut_eq_filter {ignored : String → Bool} {P : String → Prop}
    (hbelow : Selection.IgnoresBelow ignored P) (hdisk : d.top.Named IsEntryName)
    (hnode : ∀ place node, d.resolve root = .ok place → d.collectedNode? place = some node →
      node.Named P ∧ d.asksTooLong (set.selection []) place node = false) :
    set.scanLeavingOut ignored d root =
      (set.scanLeavingOut (fun _ => false) d root).map
        (List.filter fun f => !f.isIn ignored) := by
  cases hroot : d.resolve root with
  | error fault => simp only [scanLeavingOut, Disk.collect, hroot]; rfl
  | ok place =>
    cases hfound : d.collectedNode? place with
    | none =>
      simp only [scanLeavingOut, Disk.collect_eq _ hroot, hfound, bind, Except.bind,
        Option.elim_none, scanFiles]
      cases d.resolve place <;> rfl
    | some node =>
      obtain ⟨hnames, hshort⟩ := hnode place node hroot hfound
      have hless := Disk.asksTooLong_of_everything { set.selection [] with ignored := ignored }
        hnames hshort
      have hnone : d.asksTooLong { set.selection [] with ignored := fun _ => false } place node =
          false := hshort
      rw [scanLeavingOut_eq hdisk hroot hfound, scanLeavingOut_eq hdisk hroot hfound, hless, hnone,
        Selection.collectBelow_eq_filter hbelow hnames]
      exact congrArg Except.ok (filter_flatMap_findingsBelow _).symm

end RuleSet

/-- Rules that ignore a folder ignore what is in it, if no name has a line feed. -/
theorem IgnoreRules.ignoresBelow (rules : IgnoreRules) :
    Selection.IgnoresBelow rules.ignores fun name => '\n' ∉ name.toList := by
  have hpath {names : List String} (hnames : ∀ name ∈ names, '\n' ∉ name.toList) :
      '\n' ∉ (Selection.pathText names).toList := by
    intro h
    rcases Selection.mem_pathText h with h | ⟨name, hname, h⟩
    · exact absurd h (by decide)
    · exact hnames name hname h
  intro above below habove hnames h
  cases below with
  | nil => simpa using h
  | cons name below =>
    rw [Selection.pathText_append habove (List.cons_ne_nil name below)]
    exact ignores_below h
      (hpath fun other h => hnames other (List.mem_append_left _ h))
      (hpath fun other h => hnames other (List.mem_append_right _ h))

namespace RuleSet

open IgnoreRules (ofLines)

/-- A scan of a project leaves out what its ignore files say. -/
theorem scanProject_eq_scanLeavingOut {set : RuleSet} {d : Disk} {project root : Path}
    (h : d.resolve project = .ok root) :
    set.scanProject d project = set.scanLeavingOut (d.ignoreRules root).ignores d root := by
  simp only [scanProject, h]
  rfl

/-- **Not going into ignored folders is the same as filtering the findings afterwards**, by the
path of each finding alone, unless the walk that leaves nothing out meets a path that is too long to
ask about: then it ends with a fault. Ignore lines that are added anywhere ignore no path less, and
only take findings away. -/
theorem scanProject_eq_filter (set : RuleSet) (d : Disk) (project : Path)
    (hdisk : d.top.Named IsEntryName)
    (hproject : ∀ root place node, d.resolve project = .ok root → d.resolve root = .ok place →
      d.collectedNode? place = some node → node.Named fun name => '\n' ∉ name.toList) :
    (∀ root place node, d.resolve project = .ok root → d.resolve root = .ok place →
      d.collectedNode? place = some node → d.asksTooLong (set.selection []) place node = true →
      set.scanLeavingOut (fun _ => false) d root = .error .nameTooLong) ∧
    ((∀ root place node, d.resolve project = .ok root → d.resolve root = .ok place →
      d.collectedNode? place = some node → d.asksTooLong (set.selection []) place node = false) →
    (set.scanProject d project = do
      let root ← d.resolve project
      let findings ← set.scanLeavingOut (fun _ => false) d root
      return findings.filter fun f => !f.isIn (d.ignoreRules root).ignores) ∧
    ∀ before added after,
      (∀ path, (ofLines (before ++ after)).ignores path = true →
        (ofLines (before ++ added ++ after)).ignores path = true) ∧
      ∀ root, d.resolve project = .ok root →
        set.scanLeavingOut (ofLines (before ++ added ++ after)).ignores d root =
          (set.scanLeavingOut (ofLines (before ++ after)).ignores d root).map
            (List.filter fun f => !f.isIn (ofLines (before ++ added ++ after)).ignores)) := by
  refine ⟨fun root place node _ hplace hfound hlong => ?_, fun hshort => ?_⟩
  · have hlong' : d.asksTooLong { set.selection [] with ignored := fun _ => false } place node =
        true := hlong
    rw [scanLeavingOut_eq hdisk hplace hfound, if_pos hlong']
  -- For every set of rules the scan is that without rules, filtered; both parts follow.
  have hfilter (rules : IgnoreRules) (root : Path) (hroot : d.resolve project = .ok root) :=
    @scanLeavingOut_eq_filter set d root _ _ rules.ignoresBelow hdisk
      fun place node hplace hfound => ⟨hproject root place node hroot hplace hfound,
        hshort root place node hroot hplace hfound⟩
  constructor
  · cases hroot : d.resolve project with
    | error fault => simp only [scanProject, hroot]; rfl
    | ok root =>
      rw [scanProject_eq_scanLeavingOut hroot, hfilter _ root hroot]
      simp only [bind, Except.bind]
      cases set.scanLeavingOut (fun _ => false) d root <;> rfl
  · intro before added after
    have hmore (path : String) := @IgnoreRules.ignores_of_sublist _ _ path
      (IgnoreRules.ofLines_sublist before added after)
    refine ⟨hmore, fun root hroot => ?_⟩
    rw [hfilter _ root hroot, hfilter _ root hroot]
    cases set.scanLeavingOut (fun _ => false) d root with
    | error fault => rfl
    | ok findings =>
      simp only [Except.map, List.filter_filter, Except.ok.injEq]
      refine List.filter_congr fun f _ => ?_
      -- What the fewer rules leave out, the more rules leave out, too, so filtering twice is
      -- filtering once.
      cases h : f.isIn (ofLines (before ++ after)).ignores with
      | false => simp
      | true => rw [f.isIn_of_imp hmore h]; rfl

/-- A disk with a project in which a folder is ignored. -/
def ignoringDisk (out : Node) : Disk where
  top := .folder [("app", .folder [
    (".gitignore", .file (Text.Utf8.encode "out".toList)),
    ("main.js", .file (Text.Utf8.encode "eval(text)".toList)),
    ("out", out)])]
  here := []

/-- What is in the ignored folder of a project like any other. -/
def ignoredSources : Node := .folder [("main.js", .file (Text.Utf8.encode "eval(text)".toList))]

theorem named_ignoringDisk {P : String → Prop} {node : Node} (app : P "app")
    (rules : P ".gitignore")
    (main : P "main.js") (out : P "out") (hnode : node.Named P) :
    (ignoringDisk node).top.Named P := by
  refine .folder (by simp) (by simpa using app) (List.forall_mem_singleton.2 ?_)
  refine .folder (by simp) (by simp [rules, main, out]) ?_
  simp only [List.forall_mem_cons]
  exact ⟨.file _, .file _, hnode, by simp⟩

theorem named_ignoredSources {P : String → Prop} (main : P "main.js") : ignoredSources.Named P :=
  .folder (by decide) (by simpa using main) (List.forall_mem_singleton.2 (.file _))

theorem resolve_ignoringDisk (out : Node) :
    (ignoringDisk out).resolve ⟨.root, ["app"]⟩ = .ok ⟨.root, ["app"]⟩ := rfl

theorem scanProject_ignoringDisk :
    let d := ignoringDisk ignoredSources
    insecure.scanProject d ⟨.root, ["app"]⟩ = do
      let root ← d.resolve ⟨.root, ["app"]⟩
      let findings ← insecure.scanLeavingOut (fun _ => false) d root
      return findings.filter fun f => !f.isIn (d.ignoreRules root).ignores := by
  intro d
  have hentry : ∀ name ∈ ["app", ".gitignore", "main.js", "out"], IsEntryName name := by
    simp [IsEntryName, Node.IsPlain]
  refine ((scanProject_eq_filter insecure d ⟨.root, ["app"]⟩ ?_ ?_).2 ?_).1
  · exact named_ignoringDisk (hentry _ (by simp)) (hentry _ (by simp)) (hentry _ (by simp))
      (hentry _ (by simp)) (named_ignoredSources (hentry _ (by simp)))
  · exact fun _ _ _ _ _ hfound => Disk.named_of_collectedNode? (named_ignoringDisk (by decide)
      (by decide) (by decide) (by decide) (named_ignoredSources (by decide))) hfound
  · intro root place node hroot hplace hfound
    obtain rfl := Except.ok.inj ((resolve_ignoringDisk _).symm.trans hroot)
    obtain rfl := Except.ok.inj ((resolve_ignoringDisk _).symm.trans hplace)
    obtain rfl := Option.some.inj hfound
    decide +kernel

/-- **A path that is too long may be in an ignored folder**: the project is scanned, but the walk
that leaves nothing out ends with a fault and gives no findings to filter. -/
theorem scanProject_ne_filter : ∃ name, IsEntryName name ∧
    let d := ignoringDisk (.nest name .emptyFolder 17)
    d.top.Named IsEntryName ∧ d.top.Named (fun name => '\n' ∉ name.toList) ∧
      (∃ findings, insecure.scanProject d ⟨.root, ["app"]⟩ = .ok findings) ∧
      insecure.scanLeavingOut (fun _ => false) d ⟨.root, ["app"]⟩ = .error .nameTooLong := by
  obtain ⟨name, hname⟩ := exists_isLongName
  refine ⟨name, hname.entry, ?_⟩
  intro d
  have hentry : ∀ name ∈ ["app", ".gitignore", "main.js", "out"], IsEntryName name := by
    simp [IsEntryName, Node.IsPlain]
  have hempty {P : String → Prop} : Node.emptyFolder.Named P :=
    .folder (by simp) (by simp) (by simp)
  have hnamed : d.top.Named IsEntryName :=
    named_ignoringDisk (hentry _ (by simp)) (hentry _ (by simp)) (hentry _ (by simp))
      (hentry _ (by simp)) (Node.named_nest hname.entry hempty 17)
  have hroot : d.resolve ⟨.root, ["app"]⟩ = .ok ⟨.root, ["app"]⟩ := resolve_ignoringDisk _
  obtain ⟨node, hnode⟩ : ∃ node, d.collectedNode? ⟨.root, ["app"]⟩ = some node := ⟨_, rfl⟩
  -- With the rules, `out` is not entered. Without them its folders are, and the paths grow too
  -- long.
  refine ⟨hnamed, ?_, ?_, ?_⟩
  · exact named_ignoringDisk (by decide) (by decide) (by decide) (by decide)
      (Node.named_nest hname.noNewline hempty 17)
  · rw [scanProject_eq_scanLeavingOut hroot, scanLeavingOut_eq hnamed hroot hnode, if_neg]
    · exact ⟨_, rfl⟩
    · obtain rfl := Option.some.inj hnode
      exact Bool.eq_false_iff.1 rfl
  · have hout : node.find? ["out"] = some (.nest name .emptyFolder 17) := by
      obtain rfl := Option.some.inj hnode
      rfl
    rw [scanLeavingOut_eq hnamed hroot hnode, if_pos]
    exact Disk.asksTooLong_nest (Disk.named_of_collectedNode? hnamed hnode) hname rfl
      (fun _ => rfl) rfl (by decide) hout (Nat.le_refl 17)

end RuleSet

end WorkspaceAudit
