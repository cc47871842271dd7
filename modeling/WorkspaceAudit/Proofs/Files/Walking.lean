import WorkspaceAudit.Proofs.Files.Collecting
import WorkspaceAudit.Proofs.Files.Relisting

/-!
# What a walk collects, and in which order

- `Disk.Collects`: which files are collected, told file by file and without the walk.
- `Disk.MeetsTooLong`: the walk comes to an entry whose path is too long to ask about.
- `Selection.pairwise_collectNode`: the collected files stand in the order of their rows of names,
  compared name by name. This is not the order of their paths as texts: `a/x` is in front of `a.ts`.
- `Node.agrees_of_perm`: entries in another order are the same folder; `Disk.Agrees.collect_eq`: the
  order in which folders are listed has no part in what is collected.
- `Disk.collect_exact`: all of this for a folder on a disk.
-/

namespace WorkspaceAudit

/-! ## The order of the files -/

/-- Rows of names are in the order of the first names in which they differ. -/
theorem append_cons_lt {above below below' : List String} {name other : String} (h : name < other) :
    above ++ name :: below < above ++ other :: below' := by
  induction above with
  | nil => exact List.cons_lt_cons_iff.2 (.inl h)
  | cons first above ih => exact List.cons_lt_cons_iff.2 (.inr ⟨rfl, ih⟩)

/-- Different names stand in their order, once sorted, and no two are the same. -/
theorem pairwise_lt_sortByName {α : Type} {key : α → String} {xs : List α}
    (distinct : (xs.map key).Nodup) : (sortByName key xs).Pairwise fun x y => key x < key y := by
  have hne : (sortByName key xs).Pairwise fun x y => key x ≠ key y := by
    rw [← List.pairwise_map]
    exact ((perm_sortByName key xs).map key).nodup_iff.2 distinct
  refine ((pairwise_sortByName key xs).and hne).imp fun h => ?_
  exact Std.lt_of_le_of_ne (of_decide_eq_true h.1) h.2

theorem nodup_of_pairwise_lt {files : List (List String)} (h : files.Pairwise (· < ·)) :
    files.Nodup := by
  refine List.Pairwise.imp (fun {names other} hlt heq => ?_) h
  exact List.lt_irrefl other (heq ▸ hlt)

/-- Lists in strict order with the same members are the same. -/
theorem eq_of_pairwise_lt {files others : List (List String)} (h : files.Pairwise (· < ·))
    (h' : others.Pairwise (· < ·)) (hmem : ∀ names, names ∈ files ↔ names ∈ others) :
    files = others := by
  refine List.Perm.eq_of_pairwise (fun _ _ _ _ hlt hgt => absurd hgt (List.lt_asymm hlt)) h h' ?_
  exact (List.perm_ext_iff_of_nodup (nodup_of_pairwise_lt h) (nodup_of_pairwise_lt h')).2 hmem

namespace Selection

variable {sel : Selection} {P : String → Prop} {above names : List String} {node : Node}

theorem exists_append_of_mem_collectEntry {entry : String × Node} (hnode : entry.2.Named P)
    (h : names ∈ sel.collectEntry above entry) : ∃ below, names = above ++ entry.1 :: below := by
  obtain ⟨-, -, h⟩ := mem_collectEntry.1 h
  obtain ⟨below, _, rfl, _⟩ := (mem_collectNode hnode).1 h
  exact ⟨below, by simp⟩

/-- **The files stand in the order of their rows of names.** -/
theorem pairwise_collectNode (hnode : node.Named P) :
    (sel.collectNode above node).Pairwise (· < ·) := by
  induction hnode generalizing above with
  | file bytes =>
    rw [collectNode]
    split
    · exact List.pairwise_singleton _ _
    · exact .nil
  | link target => exact .nil
  | folder distinct _ hnodes ih =>
    rw [collectNode_folder]
    split
    · exact .nil
    -- Within an entry by the induction, and between two entries by their names.
    refine List.pairwise_flatMap.2 ⟨fun entry hentry => ?_, ?_⟩
    · unfold collectEntry
      split
      · exact .nil
      · exact ih entry (mem_sortByName.1 hentry)
    · refine (pairwise_lt_sortByName distinct).imp_of_mem fun hentry hother hlt x hx y hy => ?_
      obtain ⟨below, rfl⟩ :=
        exists_append_of_mem_collectEntry (hnodes _ (mem_sortByName.1 hentry)) hx
      obtain ⟨below', rfl⟩ :=
        exists_append_of_mem_collectEntry (hnodes _ (mem_sortByName.1 hother)) hy
      exact append_cons_lt hlt

theorem pairwise_collectBelow (hnode : node.Named P) :
    (sel.collectBelow node).Pairwise (· < ·) := by
  cases node with
  | file bytes => exact .nil
  | link target => exact .nil
  | folder entries => exact pairwise_collectNode hnode

theorem mem_collectBelow (hnode : node.Named P) :
    names ∈ sel.collectBelow node ↔ names ≠ [] ∧ (∃ bytes, node.find? names = some (.file bytes)) ∧
      sel.Reaches [] names ∧ sel.takes names = true := by
  cases node with
  | file bytes =>
    refine ⟨fun h => absurd h List.not_mem_nil, ?_⟩
    rintro ⟨hne, ⟨_, hfile⟩, -⟩
    cases names with
    | nil => exact absurd rfl hne
    | cons => cases hfile
  | link target =>
    refine ⟨fun h => absurd h List.not_mem_nil, ?_⟩
    rintro ⟨-, ⟨_, hfile⟩, -⟩
    cases names <;> cases hfile
  | folder entries =>
    rw [collectBelow, mem_collectNode hnode]
    constructor
    · rintro ⟨below, bytes, hnames, hfile, hreaches, htakes⟩
      obtain rfl : names = below := hnames
      refine ⟨?_, ⟨bytes, hfile⟩, hreaches, htakes⟩
      rintro rfl
      cases hfile
    · rintro ⟨-, ⟨bytes, hfile⟩, hreaches, htakes⟩
      exact ⟨names, bytes, rfl, hfile, hreaches, htakes⟩

/-- A file is taken by its last name, and if it is accepted. -/
theorem takes_iff (hne : names ≠ []) : sel.takes names = true ↔
    (∀ name, names.getLast? = some name → name ∉ generatedFiles ∧
      (Text.lower (Path.suffixOf name) ∈ sel.extensions ∨
        sel.includesEnvFiles = true ∧ ".env".toList <+: name.toList)) ∧
    sel.accepts names = true := by
  obtain ⟨above, name, rfl⟩ : ∃ above name, names = above ++ [name] :=
    ⟨_, _, (List.dropLast_concat_getLast hne).symm⟩
  simp [takes, isCandidate, List.getLastD_eq_getLast?]

end Selection

/-- Entries in another order are the same folder. -/
theorem Node.agrees_of_perm {entries others : List (String × Node)} (h : entries.Perm others)
    (distinct : (entries.map Prod.fst).Nodup) : (Node.folder entries).Agrees (.folder others) := by
  have hlookup (name : String) : entries.lookup name = others.lookup name := by
    refine Option.ext fun node => ?_
    rw [lookup_iff_mem distinct, lookup_iff_mem ((h.map _).nodup_iff.1 distinct), h.mem_iff]
  intro names
  cases names with
  | nil => rfl
  | cons name rest => rw [find?_folder_cons, find?_folder_cons, hlookup]

/-! ## Folders on a disk -/

namespace Disk

variable {d d' : Disk} {sel : Selection} {P : String → Prop} {root : Path} {names : List String}

/-- The file of these names below a folder is one that is collected. -/
structure Collects (d : Disk) (sel : Selection) (root : Path) (names : List String) : Prop where
  /-- A file is there, in folders of the folder, and neither it nor any of them is a link. -/
  file : ∃ place node bytes, d.locate root .target = .ok (.found place node) ∧
    node.find? names = some (.file bytes)
  below : names ≠ []
  /-- All folders on the way can be listed, the first one included. -/
  listed : ∀ folder, folder <+: names → folder ≠ names → d.isClosed (root.extend folder) = false
  kept : ∀ name ∈ names, name ∉ skippedFolders ∧ name ∉ sel.skipped
  /-- Neither the file nor any folder on the way is ignored. -/
  unignored : ∀ above, above <+: names → above ≠ [] →
    sel.ignored (Selection.pathText above) = false
  /-- Its name is one of a file that is read. -/
  named : ∀ name, names.getLast? = some name → name ∉ generatedFiles ∧
    (Text.lower (Path.suffixOf name) ∈ sel.extensions ∨
      sel.includesEnvFiles = true ∧ ".env".toList <+: name.toList)
  accepted : sel.accepts names = true

/-- A walk below a folder comes to an entry whose path is too long: the folders on the way can be
listed, nothing on the way is left out, and the entry itself is not left out by its name. -/
def MeetsTooLong (d : Disk) (sel : Selection) (root : Path) : Prop :=
  ∃ place node folder name child, d.locate root .target = .ok (.found place node) ∧
    node.find? (folder ++ [name]) = some child ∧ (d.listing sel root).Reaches [] folder ∧
    d.isClosed (root.extend folder) = false ∧ sel.prunes name = false ∧
    isTooLong (root.extend (folder ++ [name])) = true

theorem reaches_listing : (d.listing sel root).Reaches [] names ↔
    (∀ folder, folder <+: names → folder ≠ names → d.isClosed (root.extend folder) = false) ∧
    (∀ name ∈ names, name ∉ skippedFolders ∧ name ∉ sel.skipped) ∧
    ∀ above, above <+: names → above ≠ [] → sel.ignored (Selection.pathText above) = false := by
  have hprunes (name : String) : (d.listing sel root).prunes name = false ↔
      name ∉ skippedFolders ∧ name ∉ sel.skipped := by
    simp [Selection.prunes, listing]
  constructor
  · rintro ⟨listed, kept, unignored⟩
    exact ⟨listed, fun name h => (hprunes name).1 (kept name h), unignored⟩
  · rintro ⟨listed, kept, unignored⟩
    exact ⟨listed, fun name h => (hprunes name).2 (kept name h), unignored⟩

theorem mem_collectBelow_iff {place : List String} {node : Node} (hnode : node.Named P)
    (hlocate : d.locate root .target = .ok (.found place node)) :
    names ∈ (d.listing sel root).collectBelow node ↔ d.Collects sel root names := by
  have htakes : (d.listing sel root).takes names = sel.takes names := rfl
  rw [Selection.mem_collectBelow hnode, reaches_listing, htakes]
  constructor
  · rintro ⟨hne, ⟨bytes, hfile⟩, ⟨listed, kept, unignored⟩, htakes⟩
    obtain ⟨named, accepted⟩ := (Selection.takes_iff hne).1 htakes
    exact ⟨⟨place, node, bytes, hlocate, hfile⟩, hne, listed, kept, unignored, named, accepted⟩
  · rintro ⟨⟨_, _, bytes, hlocate', hfile⟩, hne, listed, kept, unignored, named, accepted⟩
    obtain ⟨-, rfl⟩ := Place.found.inj (Except.ok.inj (hlocate.symm.trans hlocate'))
    exact ⟨hne, ⟨bytes, hfile⟩, ⟨listed, kept, unignored⟩,
      (Selection.takes_iff hne).2 ⟨named, accepted⟩⟩

theorem asksTooLong_iff {place : List String} {node : Node} (hnode : node.Named P)
    (hlocate : d.locate root .target = .ok (.found place node)) :
    d.asksTooLong sel root node = true ↔ d.MeetsTooLong sel root := by
  rw [asksTooLong_eq_true hnode]
  constructor
  · rintro ⟨folder, name, child, hasked⟩
    exact ⟨place, node, folder, name, child, hlocate, hasked⟩
  · rintro ⟨_, _, folder, name, child, hlocate', hasked⟩
    obtain ⟨-, rfl⟩ := Place.found.inj (Except.ok.inj (hlocate.symm.trans hlocate'))
    exact ⟨folder, name, child, hasked⟩

/-- What is collected below a path that resolves. -/
theorem collect_of_resolve (sel : Selection) (hdisk : d.top.Named P) {place : Path}
    (h : d.resolve root = .ok place) :
    (d.MeetsTooLong sel place ∧ d.collect sel root = .error .nameTooLong) ∨
    (¬d.MeetsTooLong sel place ∧ ∃ files, d.collect sel root = .ok (place, files) ∧
      (∀ names, names ∈ files ↔ d.Collects sel place names) ∧ files.Pairwise (· < ·)) := by
  rw [collect_eq sel h]
  cases hfound : d.collectedNode? place with
  | none =>
    have hnothing {names : List String} {node : Node} :
        d.locate place .target ≠ .ok (.found names node) := by
      intro hlocate
      rw [collectedNode?, hlocate] at hfound
      cases hfound
    refine .inr ⟨?_, [], rfl, fun names => ⟨fun h => absurd h List.not_mem_nil, ?_⟩, .nil⟩
    · rintro ⟨_, _, _, _, _, hlocate, -⟩
      exact hnothing hlocate
    · rintro ⟨⟨_, _, _, hlocate, -⟩, -⟩
      exact absurd hlocate hnothing
  | some node =>
    have hnode := named_of_collectedNode? hdisk hfound
    obtain ⟨names, hlocate⟩ := collectedNode?_eq_some hfound
    rw [Option.elim_some, ← asksTooLong_iff hnode hlocate]
    cases hlong : d.asksTooLong sel place node with
    | true => exact .inl ⟨rfl, rfl⟩
    | false =>
      exact .inr ⟨Bool.false_ne_true, _, rfl, fun _ => mem_collectBelow_iff hnode hlocate,
        Selection.pairwise_collectBelow hnode⟩

/-- Disks with the same to collect below a path give the same. -/
theorem collect_congr (hdisk : d.top.Named P) (hdisk' : d'.top.Named P) {place : Path}
    (hroot : d.resolve root = .ok place) (hroot' : d'.resolve root = .ok place)
    (hlong : d.MeetsTooLong sel place ↔ d'.MeetsTooLong sel place)
    (hcollects : ∀ names, d.Collects sel place names ↔ d'.Collects sel place names) :
    d'.collect sel root = d.collect sel root := by
  rcases collect_of_resolve sel hdisk hroot with
    ⟨hmeets, hcollect⟩ | ⟨hshort, files, hcollect, hmem, hsorted⟩
  all_goals
    rcases collect_of_resolve sel hdisk' hroot' with
      ⟨hmeets', hcollect'⟩ | ⟨hshort', files', hcollect', hmem', hsorted'⟩
  · rw [hcollect, hcollect']
  · exact absurd (hlong.1 hmeets) hshort'
  · exact absurd (hlong.2 hmeets') hshort
  · have hfiles : files' = files := eq_of_pairwise_lt hsorted' hsorted fun names => by
      rw [hmem', hmem, hcollects]
    rw [hcollect, hcollect', hfiles]

/-! ## Folders listed in another order -/

theorem Agrees.listing_eq (h : d.Agrees d') (sel : Selection) (root : Path) :
    d.listing sel root = d'.listing sel root := by
  simp only [listing, h.isClosed_eq]

theorem Agrees.collects (h : d.Agrees d') (hcollects : d.Collects sel root names) :
    d'.Collects sel root names := by
  obtain ⟨⟨place, node, bytes, hlocate, hfile⟩, below, listed, kept, unignored, named, accepted⟩ :=
    hcollects
  obtain ⟨other, hlocate', hagrees⟩ := (h.locate root .target).exists_found hlocate
  refine ⟨⟨place, other, bytes, hlocate', hagrees.find?_eq_file.1 hfile⟩, below, ?_, kept,
    unignored, named, accepted⟩
  simpa only [h.isClosed_eq] using listed

theorem Agrees.meetsTooLong (h : d.Agrees d') (hmeets : d.MeetsTooLong sel root) :
    d'.MeetsTooLong sel root := by
  obtain ⟨place, node, folder, name, child, hlocate, hfound, hreaches, hlisted, hasked⟩ := hmeets
  obtain ⟨other, hlocate', hagrees⟩ := (h.locate root .target).exists_found hlocate
  rw [h.listing_eq] at hreaches
  rw [h.isClosed_eq] at hlisted
  rcases hagrees.find? (folder ++ [name]) with ⟨hnone, -⟩ | ⟨_, child', -, hfound', -⟩
  · rw [hfound] at hnone
    cases hnone
  · exact ⟨place, other, folder, name, child', hlocate', hfound', hreaches, hlisted, hasked⟩

/-- **The order in which folders are listed has no part in what is collected.** -/
theorem Agrees.collect_eq (h : d.Agrees d') (hdisk : d.top.Named P) (hdisk' : d'.top.Named P)
    (sel : Selection) (root : Path) : d'.collect sel root = d.collect sel root := by
  cases hroot : d.resolve root with
  | error fault =>
    have hroot' := (h.resolve_eq root).symm.trans hroot
    simp only [collect, hroot, hroot', bind, Except.bind]
  | ok place =>
    exact collect_congr hdisk hdisk' hroot ((h.resolve_eq root).symm.trans hroot)
      ⟨h.meetsTooLong, h.symm.meetsTooLong⟩ fun names => ⟨h.collects, h.symm.collects⟩

/-- **A walk collects the right files, once each and in a fixed order.** Below a folder that
resolves, the files are those that `Collects` tells, in strict order of their rows of names, unless
the walk comes to a path that is too long to ask about: then it ends with a fault, whatever else
there is to collect. It is the same in whatever order the folders are listed. -/
theorem collect_exact (d : Disk) (sel : Selection) (root : Path) (hdisk : d.top.Named P) :
    (∀ fault, d.resolve root = .error fault → d.collect sel root = .error fault) ∧
    (∀ place, d.resolve root = .ok place →
      (d.MeetsTooLong sel place → d.collect sel root = .error .nameTooLong) ∧
      (¬d.MeetsTooLong sel place → ∃ files, d.collect sel root = .ok (place, files) ∧
        (∀ names, names ∈ files ↔ d.Collects sel place names) ∧ files.Nodup ∧
        files.Pairwise (· < ·))) ∧
    ∀ d', d'.top.Named P → d.Agrees d' → d'.collect sel root = d.collect sel root := by
  refine ⟨fun fault hroot => ?_, fun place hroot => ?_,
    fun d' hdisk' hagrees => hagrees.collect_eq hdisk hdisk' sel root⟩
  · simp only [collect, hroot, bind, Except.bind]
  · rcases collect_of_resolve sel hdisk hroot with
      ⟨hlong, hcollect⟩ | ⟨hshort, files, hcollect, hmem, hsorted⟩
    · exact ⟨fun _ => hcollect, fun hshort => absurd hlong hshort⟩
    · exact ⟨fun hlong => absurd hlong hshort,
        fun _ => ⟨files, hcollect, hmem, nodup_of_pairwise_lt hsorted, hsorted⟩⟩

/-- Files beside a link, a folder that is left out by its name, and one more. -/
def mixedEntries : List (String × Node) :=
  [("b.py", .file []), ("l", .link "a"), ("a.py", .file []), ("a", .folder [("x.py", .file [])]),
   (".git", .folder [("x.py", .file [])]), ("z", .folder [("x.py", .file [])])]

/-- A disk with these entries, of which one cannot be listed. -/
def mixedDisk (entries : List (String × Node)) : Disk where
  top := .folder entries
  here := []
  closed := ["/z"]

theorem named_mixedDisk {entries : List (String × Node)} (h : entries.Perm mixedEntries) :
    (mixedDisk entries).top.Named IsEntryName := by
  have hnames : ∀ name ∈ "x.py" :: mixedEntries.map Prod.fst, IsEntryName name := by
    simp [mixedEntries, IsEntryName, Node.IsPlain]
  have hfolder : (Node.folder [("x.py", .file [])]).Named IsEntryName :=
    .folder (by simp) (by simpa using hnames "x.py" List.mem_cons_self)
      (List.forall_mem_singleton.2 (.file _))
  refine .folder ((h.map _).nodup_iff.2 (by decide)) (fun entry hentry => hnames _ ?_)
    fun entry hentry => ?_
  · exact List.mem_cons_of_mem _ (List.mem_map_of_mem (h.mem_iff.1 hentry))
  · have hnodes : ∀ entry ∈ mixedEntries, entry.2.Named IsEntryName := by
      simp only [mixedEntries, List.forall_mem_cons]
      exact ⟨.file _, .link _, .file _, hfolder, hfolder, hfolder, by simp⟩
    exact hnodes entry (h.mem_iff.1 hentry)

theorem collect_mixedDisk :
    let sel : Selection := { extensions := [".py"] }
    (mixedDisk mixedEntries).collect sel ⟨.root, []⟩ =
      .ok (⟨.root, []⟩, [["a", "x.py"], ["a.py"], ["b.py"]]) ∧
    (mixedDisk mixedEntries).Collects sel ⟨.root, []⟩ ["a", "x.py"] ∧
    ¬(mixedDisk mixedEntries).Collects sel ⟨.root, []⟩ ["l", "x.py"] ∧
    (mixedDisk mixedEntries.reverse).collect sel ⟨.root, []⟩ =
      (mixedDisk mixedEntries).collect sel ⟨.root, []⟩ := by
  intro sel
  have hnamed := named_mixedDisk (.refl mixedEntries)
  have hreversed := named_mixedDisk mixedEntries.reverse_perm
  have hfiles : ((mixedDisk mixedEntries).collect sel ⟨.root, []⟩).toOption =
      some (⟨.root, []⟩, [["a", "x.py"], ["a.py"], ["b.py"]]) := by decide +kernel
  have hcollect : (mixedDisk mixedEntries).collect sel ⟨.root, []⟩ =
      .ok (⟨.root, []⟩, [["a", "x.py"], ["a.py"], ["b.py"]]) := by
    cases h : (mixedDisk mixedEntries).collect sel ⟨.root, []⟩ with
    | error fault => rw [h] at hfiles; cases hfiles
    | ok collected => rw [h] at hfiles; exact congrArg _ (Option.some.inj hfiles)
  -- The reversed listing is not computed: it agrees with the other one.
  have hagrees : (mixedDisk mixedEntries).Agrees (mixedDisk mixedEntries.reverse) :=
    ⟨Node.agrees_of_perm mixedEntries.reverse_perm.symm (by decide), rfl, rfl⟩
  obtain ⟨-, hfolder, hrelisted⟩ :=
    collect_exact (mixedDisk mixedEntries) sel ⟨.root, []⟩ hnamed
  obtain ⟨hlong, hshort⟩ := hfolder ⟨.root, []⟩ rfl
  have hnot : ¬(mixedDisk mixedEntries).MeetsTooLong sel ⟨.root, []⟩ := by
    intro h
    rw [hlong h] at hcollect
    cases hcollect
  obtain ⟨files, hfiles, hmem, -, -⟩ := hshort hnot
  obtain ⟨-, rfl⟩ := Prod.mk.inj (Except.ok.inj (hcollect.symm.trans hfiles))
  exact ⟨hcollect, (hmem _).1 (by decide), fun h => absurd ((hmem _).2 h) (by decide),
    hrelisted _ hreversed hagrees⟩

/-- A disk with a file beside folders in one another. -/
def deepDisk (name : String) (bytes : List UInt8) : Disk where
  top := .folder [("a.py", .file bytes), ("s", .nest name .emptyFolder 17)]
  here := []

theorem named_deepDisk {name : String} (hname : IsEntryName name) (bytes : List UInt8) :
    (deepDisk name bytes).top.Named IsEntryName := by
  have hempty : Node.emptyFolder.Named IsEntryName := .folder (by simp) (by simp) (by simp)
  refine .folder (by simp) (by simp [IsEntryName, Node.IsPlain]) ?_
  simp only [List.forall_mem_cons]
  exact ⟨.file _, Node.named_nest hname hempty 17, by simp⟩

/-- The walk below such folders does not come to an end if they have long names. -/
theorem collect_deepDisk {name : String} (hname : IsLongName name) (bytes : List UInt8)
    (hall : ∀ path, sel.ignored path = false) (hskipped : sel.skipped = []) :
    (deepDisk name bytes).collect sel ⟨.root, []⟩ = .error .nameTooLong := by
  have hroot : (deepDisk name bytes).resolve ⟨.root, []⟩ = .ok ⟨.root, []⟩ := rfl
  have hfound : (deepDisk name bytes).collectedNode? ⟨.root, []⟩ =
      some (deepDisk name bytes).top := rfl
  rw [collect_eq sel hroot, hfound, Option.elim_some, if_pos]
  exact asksTooLong_nest (named_deepDisk hname.entry bytes) hname rfl hall hskipped
    (by decide : ∀ name ∈ ["s"], name ∉ skippedFolders) rfl (Nat.le_refl 17)

/-- **A path that is too long hides the files beside it**: nothing is collected. -/
theorem collect_ne_collects : ∃ name, IsEntryName name ∧
    let d := deepDisk name []
    let sel : Selection := { extensions := [".py"] }
    d.top.Named IsEntryName ∧ d.resolve ⟨.root, []⟩ = .ok ⟨.root, []⟩ ∧
      d.Collects sel ⟨.root, []⟩ ["a.py"] ∧
      d.collect sel ⟨.root, []⟩ = .error .nameTooLong := by
  obtain ⟨name, hname⟩ := exists_isLongName
  refine ⟨name, hname.entry, ?_⟩
  intro d sel
  refine ⟨named_deepDisk hname.entry [], rfl, ?_,
    collect_deepDisk hname [] (fun _ => rfl) rfl⟩
  have hlocate : d.locate ⟨.root, []⟩ .target = .ok (.found [] d.top) := rfl
  have hopen (p : Path) : d.isClosed p = false := rfl
  have hall (path : String) : sel.ignored path = false := rfl
  exact
    { file := ⟨[], d.top, [], hlocate, rfl⟩
      below := by simp
      listed := fun _ _ _ => hopen _
      kept := by decide
      unignored := fun _ _ _ => hall _
      named := by
        intro last hlast
        obtain rfl := Option.some.inj hlast
        decide +kernel
      accepted := rfl }

end Disk

end WorkspaceAudit
