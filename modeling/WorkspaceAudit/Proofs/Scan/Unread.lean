import WorkspaceAudit.Proofs.Files.Asking
import WorkspaceAudit.Proofs.Report.Store
import WorkspaceAudit.Proofs.Scan.Auditing
import WorkspaceAudit.Proofs.Scan.Ordering

/-!
# Files that no scanner reads

A scan of a folder reads the files with names that a scanner looks for, and what the ignore files
and the package file of the folder lead to. Other files may come, go and change.

- `isUnread`: the name of a file that no standard scanner reads.
- `Disk.DiffersUnread d d' place`: the disks differ in nothing that a scan of the folder reads.
- `Disk.SameBelow.collect_eq`: the same files are collected, `Disk.DiffersUnread.readSource_eq`:
  and they have the same text.
- `Disk.DiffersUnread.gather_eq`: so the standard scanners find the same.
-/

namespace WorkspaceAudit

/-- No standard scanner reads a file of the name. -/
def isUnread (name : String) : Bool :=
  [RuleSet.secrets.selection [], RuleSet.insecure.selection [], routeSelection].all fun sel =>
    !sel.isCandidate name

theorem isCandidate_of_isUnread {set : RuleSet} (hset : set ∈ [RuleSet.secrets, .insecure])
    {name : String} (h : isUnread name = true) (rules : IgnoreRules) :
    (set.selection rules).isCandidate name = false := by
  have hrules : (set.selection rules).isCandidate name = (set.selection []).isCandidate name := rfl
  rw [hrules]
  simp only [isUnread, List.all_cons, List.all_nil, Bool.and_true, Bool.and_eq_true,
    Bool.not_eq_true'] at h
  simp only [List.mem_cons, List.not_mem_nil, or_false] at hset
  rcases hset with rfl | rfl
  · exact h.1
  · exact h.2.1

theorem isCandidate_routeSelection {name : String} (h : isUnread name = true) :
    routeSelection.isCandidate name = false := by
  simp only [isUnread, List.all_cons, List.all_nil, Bool.and_true, Bool.and_eq_true,
    Bool.not_eq_true'] at h
  exact h.2.2

/-- The names in a folder of the files that a scan asks for by name. -/
def askedFor : List String := "package.json" :: IgnoreRules.fileNames

theorem isEntryName_askedFor : ∀ name ∈ askedFor, IsEntryName name := by
  simp [askedFor, IgnoreRules.fileNames, IsEntryName, Node.IsPlain]

/-- What is on the way to something is a folder. -/
theorem Node.exists_folder_of_append {top node : Node} {front rest : List String}
    (h : top.find? (front ++ rest) = some node) (hne : rest ≠ []) :
    ∃ entries, top.find? front = some (.folder entries) := by
  rw [find?_append] at h
  obtain ⟨found, hfound, hrest⟩ := Option.bind_eq_some_iff.1 h
  cases rest with
  | nil => exact absurd rfl hne
  | cons name rest =>
    cases found with
    | folder entries => exact ⟨entries, hfound⟩
    | _ => cases hrest

namespace Disk

open Node

variable {d d' : Disk} {place names : List String} {entries : List (String × Node)}
  {sel : Selection}

/-- **The disks differ in nothing that a scan of the folder of these names reads.** -/
structure DiffersUnread (d d' : Disk) (place : List String) : Prop where
  here : d'.here = d.here
  closed : d'.closed = d.closed
  /-- Where they differ, the first one has a file or nothing, and the other one has no link. -/
  kind : ∀ x, ¬SameAt d.top d'.top x →
    (∀ node, d.top.find? x = some node → ∃ bytes, node = .file bytes) ∧
      ∀ target, d'.top.find? x ≠ some (.link target)
  /-- In the folder they differ in files only that are not read, but for folders. -/
  unread : ∀ names, ¬SameAt d.top d'.top (place ++ names) → ∀ bytes,
    d.top.find? (place ++ names) = some (.file bytes) ∨
      d'.top.find? (place ++ names) = some (.file bytes) →
    isUnread (names.getLastD "") = true
  /-- The paths in the folder at which they differ are not too long to ask about. -/
  short : ∀ names, ¬SameAt d.top d'.top (place ++ names) →
    isTooLong ⟨.root, place ++ names⟩ = false
  /-- What the ignore files and the package file lead to is the same, with all on the way. -/
  led : ∀ name ∈ askedFor, ∀ x, d.Asks ⟨.root, place ++ [name]⟩ x → SameAt d.top d'.top x

namespace DiffersUnread

variable (h : d.DiffersUnread d' place)
include h

/-! ## What is the same on both disks -/

theorem sameAt_of_folder {x : List String} (hfolder : d.top.find? x = some (.folder entries)) :
    SameAt d.top d'.top x := by
  by_contra hdiffer
  obtain ⟨bytes, hbytes⟩ := (h.kind x hdiffer).1 _ hfolder
  cases hbytes

theorem link_iff (x : List String) (target : String) :
    d.top.find? x = some (.link target) ↔ d'.top.find? x = some (.link target) := by
  have hsame : d.top.find? x = some (.link target) ∨ d'.top.find? x = some (.link target) →
      SameAt d.top d'.top x := by
    intro hlink
    by_contra hdiffer
    obtain ⟨hfile, hnone⟩ := h.kind x hdiffer
    rcases hlink with hlink | hlink
    · obtain ⟨bytes, hbytes⟩ := hfile _ hlink
      cases hbytes
    · exact hnone target hlink
  exact ⟨fun hlink => (hsame (.inl hlink)).link_iff.1 hlink,
    fun hlink => (hsame (.inr hlink)).link_iff.2 hlink⟩

theorem settled_eq (p : Path) : d'.settled p = d.settled p := by
  simp only [settled, h.here, settle_congr h.link_iff]

/-- What is on the way to a folder of the first disk is the same on both. -/
theorem sameAt_front {front rest : List String}
    (hfolder : d.top.find? (front ++ rest) = some (.folder entries)) :
    SameAt d.top d'.top front := by
  by_cases hrest : rest = []
  · rw [hrest, List.append_nil] at hfolder
    exact h.sameAt_of_folder hfolder
  · obtain ⟨_, hfront⟩ := exists_folder_of_append hfolder hrest
    exact h.sameAt_of_folder hfront

/-- What is asked about on the way to something without links is the same, if that is. -/
theorem sameAt_of_asks {node : Node} (hplain : ∀ name ∈ names, IsPlain name)
    (hfound : d.top.find? names = some node) (hlink : ∀ target, node ≠ .link target)
    (hsame : SameAt d.top d'.top names) {x : List String} (hasks : d.Asks ⟨.root, names⟩ x) :
    SameAt d.top d'.top x := by
  have hdown : Node.Asks d.top [] names x := hasks
  obtain ⟨front, ⟨rest, rfl⟩, rfl⟩ := asks_plain hplain (by simpa using hfound) hlink hdown
  by_cases hrest : rest = []
  · rwa [hrest, List.append_nil] at hsame
  · obtain ⟨_, hfront⟩ := exists_folder_of_append hfound hrest
    exact h.sameAt_of_folder hfront

/-- A folder without links on the way is one on both disks. -/
theorem straight {here : List String} (hstraight : Straight d.top here)
    (hfolder : d.top.find? here.reverse = some (.folder entries)) : Straight d'.top here := by
  induction hstraight generalizing entries with
  | root => exact .root
  | @down here name node above plain found noLink ih =>
    obtain ⟨entries', hfolder'⟩ := (h.sameAt_of_folder hfolder).folder hfolder
    rw [List.reverse_cons] at hfolder
    obtain ⟨_, habove⟩ := exists_folder_of_append hfolder (List.cons_ne_nil name [])
    exact .down (ih habove) plain hfolder' (by simp)

end DiffersUnread

/-! ## What is collected -/

/-- The same files are to be read in a folder without links on the way, and the same paths in it are
too long. -/
structure SameBelow (d d' : Disk) (place : List String) : Prop where
  closed : d'.closed = d.closed
  straight : Straight d.top place.reverse ∧ Straight d'.top place.reverse
  locate : (d.locate ⟨.root, place⟩ .target).map Place.bare =
    (d'.locate ⟨.root, place⟩ .target).map Place.bare
  files : ∀ names bytes, isUnread (names.getLastD "") = false →
    (d.top.find? (place ++ names) = some (.file bytes) ↔
      d'.top.find? (place ++ names) = some (.file bytes))
  long : ∀ names, isTooLong ⟨.root, place ++ names⟩ = true →
    ((d.top.find? (place ++ names)).isSome ↔ (d'.top.find? (place ++ names)).isSome)

namespace SameBelow

theorem symm (h : d.SameBelow d' place) : d'.SameBelow d place where
  closed := h.closed.symm
  straight := h.straight.symm
  locate := h.locate.symm
  files names bytes hread := (h.files names bytes hread).symm
  long names hlong := (h.long names hlong).symm

theorem exists_found (h : d.SameBelow d' place) {there : List String} {node : Node}
    (hlocate : d.locate ⟨.root, place⟩ .target = .ok (.found there node)) :
    ∃ node', d'.locate ⟨.root, place⟩ .target = .ok (.found place node') ∧
      (∀ names, node.find? names = d.top.find? (place ++ names)) ∧
      ∀ names, node'.find? names = d'.top.find? (place ++ names) := by
  have hbelow {d : Disk} {node : Node} (hnode : d.top.find? place = some node)
      (names : List String) : node.find? names = d.top.find? (place ++ names) := by
    rw [find?_append, hnode, Option.bind_some]
  obtain rfl := names_of_locate h.straight.1 hlocate
  rcases Place.cases_of_bare h.locate with
    ⟨fault, herror, -⟩ | ⟨there, first, node', hfirst, hlocate', -⟩ | ⟨folder, name, hfree, -⟩
  · cases herror.symm.trans hlocate
  · obtain ⟨rfl, rfl⟩ := Place.found.inj (Except.ok.inj (hfirst.symm.trans hlocate))
    exact ⟨node', hlocate', hbelow (locate_leads hlocate).2.1, hbelow (locate_leads hlocate').2.1⟩
  · cases hfree.symm.trans hlocate

theorem collects (h : d.SameBelow d' place)
    (hsel : ∀ name, isUnread name = true → sel.isCandidate name = false)
    (hcollects : d.Collects sel ⟨.root, place⟩ names) : d'.Collects sel ⟨.root, place⟩ names := by
  obtain ⟨⟨there, node, bytes, hlocate, hfile⟩, below, listed, kept, unignored, named, accepted⟩ :=
    hcollects
  obtain ⟨node', hlocate', hnode, hnode'⟩ := h.exists_found hlocate
  have hread : isUnread (names.getLastD "") = false := by
    have htakes := (Selection.takes_iff below).2 ⟨named, accepted⟩
    rw [Selection.takes, Bool.and_eq_true] at htakes
    rw [← Bool.not_eq_true]
    intro hunread
    rw [hsel _ hunread] at htakes
    exact absurd htakes.1 Bool.false_ne_true
  rw [hnode, h.files names bytes hread, ← hnode'] at hfile
  refine ⟨⟨place, node', bytes, hlocate', hfile⟩, below, ?_, kept, unignored, named, accepted⟩
  simpa only [isClosed, h.closed] using listed

theorem meetsTooLong (h : d.SameBelow d' place) (hmeets : d.MeetsTooLong sel ⟨.root, place⟩) :
    d'.MeetsTooLong sel ⟨.root, place⟩ := by
  obtain ⟨there, node, folder, name, child, hlocate, hfound, hreaches, hlisted, hprunes, hlong⟩ :=
    hmeets
  obtain ⟨node', hlocate', hnode, hnode'⟩ := h.exists_found hlocate
  have hlisting : d'.listing sel ⟨.root, place⟩ = d.listing sel ⟨.root, place⟩ := by
    simp only [listing, isClosed, h.closed]
  have hsome : (d.top.find? (place ++ (folder ++ [name]))).isSome := by
    rw [← hnode, hfound]
    rfl
  obtain ⟨child', hfound'⟩ := Option.isSome_iff_exists.1 ((h.long _ hlong).1 hsome)
  refine ⟨place, node', folder, name, child', hlocate', (hnode' _).trans hfound', ?_, ?_, hprunes,
    hlong⟩
  · rwa [hlisting]
  · rwa [isClosed, h.closed]

/-- **The same files are collected.** -/
theorem collect_eq (h : d.SameBelow d' place) (hdisk : d.top.Named IsEntryName)
    (hdisk' : d'.Distinct) (hroot : d.resolve ⟨.root, place⟩ = .ok ⟨.root, place⟩)
    (hroot' : d'.resolve ⟨.root, place⟩ = .ok ⟨.root, place⟩)
    (hsel : ∀ name, isUnread name = true → sel.isCandidate name = false) :
    d'.collect sel ⟨.root, place⟩ = d.collect sel ⟨.root, place⟩ :=
  collect_congr (hdisk.mono fun _ _ => trivial) hdisk' hroot hroot'
    ⟨h.meetsTooLong, h.symm.meetsTooLong⟩ fun _ => ⟨h.collects hsel, h.symm.collects hsel⟩

end SameBelow

namespace DiffersUnread

variable (h : d.DiffersUnread d' place) (hdisk : d.top.Named IsEntryName)
  (hstraight : Straight d.top place.reverse)
  (hfolder : d.top.find? place = some (.folder entries))
include h hfolder

theorem sameAt_top : SameAt d.top d'.top [] := by
  rw [← List.nil_append place] at hfolder
  exact h.sameAt_front hfolder

theorem locate_eq_of_asks {p : List String}
    (hasks : ∀ x, d.Asks ⟨.root, p⟩ x → SameAt d.top d'.top x) :
    (d.locate ⟨.root, p⟩ .target).map Place.bare = (d'.locate ⟨.root, p⟩ .target).map Place.bare :=
  have htop := h.sameAt_top hfolder
  locate_of_asks (p := ⟨.root, p⟩) h.here htop htop hasks .target

theorem readSource_eq_of_asks {p : List String}
    (hasks : ∀ x, d.Asks ⟨.root, p⟩ x → SameAt d.top d'.top x) :
    d'.readSource ⟨.root, p⟩ = d.readSource ⟨.root, p⟩ := by
  have htop := h.sameAt_top hfolder
  rw [readSource, readSource, readBytes_of_asks (p := ⟨.root, p⟩) h.here h.closed htop htop hasks]

/-- **The ignore files give the same rules.** -/
theorem ignoreRules_eq : d'.ignoreRules ⟨.root, place⟩ = d.ignoreRules ⟨.root, place⟩ := by
  have hread (name : String) (hname : name ∈ IgnoreRules.fileNames) :
      d'.readSource (Path.below ⟨.root, place⟩ name) =
        d.readSource (Path.below ⟨.root, place⟩ name) := by
    have hasked : name ∈ askedFor := List.mem_cons_of_mem _ hname
    rw [Report.below_of_isEntryName (isEntryName_askedFor name hasked)]
    exact h.readSource_eq_of_asks hfolder (h.led name hasked)
  simp only [ignoreRules, IgnoreRules.fileNames, List.flatMap_cons, List.flatMap_nil,
    hread ".gitignore" (by decide), hread ".aiignore" (by decide)]

/-- **The package file is there on both disks**, or on none. -/
theorem exists?_package_eq : d'.exists? (Path.below ⟨.root, place⟩ "package.json") =
    d.exists? (Path.below ⟨.root, place⟩ "package.json") := by
  have hasked : "package.json" ∈ askedFor := List.mem_cons_self
  have htop := h.sameAt_top hfolder
  rw [Report.below_of_isEntryName (isEntryName_askedFor _ hasked)]
  exact exists?_of_asks (p := ⟨.root, place ++ ["package.json"]⟩) h.here htop htop
    (h.led _ hasked)

include hdisk hstraight

theorem sameBelow : d.SameBelow d' place where
  closed := h.closed
  straight := ⟨hstraight, h.straight hstraight (by rwa [List.reverse_reverse])⟩
  locate := by
    refine h.locate_eq_of_asks hfolder fun x hasks => ?_
    exact h.sameAt_of_asks (fun name hname => (hdisk.forall_of_find? hfolder name hname).1) hfolder
      (by simp) (h.sameAt_of_folder hfolder) hasks
  files names bytes hread := by
    by_cases hsame : SameAt d.top d'.top (place ++ names)
    · exact hsame.file_iff
    have hnot := fun hfile =>
      Bool.false_ne_true (hread.symm.trans (h.unread names hsame bytes hfile))
    exact ⟨fun hfile => absurd (.inl hfile) hnot, fun hfile => absurd (.inr hfile) hnot⟩
  long names hlong := by
    by_cases hsame : SameAt d.top d'.top (place ++ names)
    · have hsome := congrArg Option.isSome hsame
      rw [Option.isSome_map, Option.isSome_map] at hsome
      rw [hsome]
    · exact absurd ((h.short names hsame).symm.trans hlong) Bool.false_ne_true

/-- **The project resolves to the same folder.** -/
theorem resolve_eq {project : Path} (hproject : d.resolve project = .ok ⟨.root, place⟩) :
    d'.resolve project = .ok ⟨.root, place⟩ := by
  have hlocate := (h.sameBelow hdisk hstraight hfolder).locate
  unfold resolve at hproject ⊢
  split at hproject
  · cases hproject
  rename_i hnul
  rw [if_neg hnul, h.settled_eq]
  cases hsettled : d.settled project with
  | error fault =>
    rw [hsettled] at hproject
    cases hproject
  | ok q =>
    simp only [hsettled, bind, Except.bind] at hproject ⊢
    obtain rfl : q = ⟨.root, place⟩ := by
      split at hproject
      · cases hproject
      · exact Except.ok.inj hproject
    rcases Place.cases_of_bare hlocate with
      ⟨fault, hfault, hfault'⟩ | ⟨_, _, _, -, hfound', -⟩ | ⟨_, _, -, hfree'⟩
    · rw [hfault']
      rwa [hfault] at hproject
    · rw [hfound']
      rfl
    · rw [hfree']
      rfl

/-- **Files that are collected have the same text.** -/
theorem readSource_eq (hsel : ∀ name, isUnread name = true → sel.isCandidate name = false)
    (hcollects : d.Collects sel ⟨.root, place⟩ names) :
    d'.readSource (Path.extend ⟨.root, place⟩ names) =
      d.readSource (Path.extend ⟨.root, place⟩ names) := by
  have hsame := h.sameBelow hdisk hstraight hfolder
  obtain ⟨there, node, bytes, hlocate, hfile⟩ := hcollects.file
  obtain ⟨node', -, hnode, -⟩ := hsame.exists_found hlocate
  rw [hnode] at hfile
  refine h.readSource_eq_of_asks hfolder fun x hasks => ?_
  refine h.sameAt_of_asks (fun name hname => (hdisk.forall_of_find? hfile name hname).1) hfile
    (by simp) ?_ hasks
  by_contra hdiffer
  have hunread := hsel _ (h.unread names hdiffer bytes (.inl hfile))
  have htakes := (Selection.takes_iff hcollects.below).2 ⟨hcollects.named, hcollects.accepted⟩
  rw [Selection.takes, hunread] at htakes
  exact absurd htakes Bool.false_ne_true

end DiffersUnread

end Disk

/-! ## What is found -/

section Scanners

open Node

variable {d d' : Disk} {m m' : Machine} {place : List String} {entries : List (String × Node)}

/-- **A rule set finds the same in the folder.** -/
theorem RuleSet.scanProject_unread {set : RuleSet} (hset : set ∈ [RuleSet.secrets, .insecure])
    (h : d.DiffersUnread d' place) (hdisk : d.top.Named IsEntryName)
    (hdisk' : d'.Distinct) (hstraight : Straight d.top place.reverse)
    (hfolder : d.top.find? place = some (.folder entries))
    (hself : d.resolve ⟨.root, place⟩ = .ok ⟨.root, place⟩) :
    set.scanProject d' ⟨.root, place⟩ = set.scanProject d ⟨.root, place⟩ := by
  have hself' := h.resolve_eq hdisk hstraight hfolder hself
  have hsame := h.sameBelow hdisk hstraight hfolder
  have hrules := h.ignoreRules_eq hfolder
  -- No name of a differing file is a candidate, so that the same files are collected.
  have hsel := fun name (hname : isUnread name = true) =>
    isCandidate_of_isUnread hset hname (d.ignoreRules ⟨.root, place⟩)
  have hcollect := hsame.collect_eq hdisk hdisk' hself hself' hsel
  simp only [scanProject, hself, hself', bind, Except.bind, hrules, hcollect]
  rcases Disk.collect_of_resolve (set.selection (d.ignoreRules ⟨.root, place⟩)) hdisk hself with
    ⟨-, hlong⟩ | ⟨-, files, hfiles, hmem, -⟩
  · rw [hlong]
  rw [hfiles]
  dsimp only
  have hanchor := Disk.resolve_anchor hself
  rw [scanFiles_collected hdisk hanchor hself fun names hnames =>
      have hcollects := (hmem names).1 hnames
      ⟨hcollects.below, hcollects.file⟩,
    scanFiles_located hanchor hself' fun names hnames =>
      have hcollects := (hmem names).1 hnames
      ⟨hcollects.below, hcollects.isEntryName hdisk, (hsame.collects hsel hcollects).file⟩]
  congr 1
  refine List.flatMap_congr fun names hnames => ?_
  rw [findingsBelow, findingsBelow,
    h.readSource_eq hdisk hstraight hfolder hsel ((hmem names).1 hnames)]

/-- **The same routes are found in the folder.** -/
theorem scanRoutes_unread (h : d.DiffersUnread d' place) (hdisk : d.top.Named IsEntryName)
    (hdisk' : d'.Distinct) (hstraight : Straight d.top place.reverse)
    (hfolder : d.top.find? place = some (.folder entries))
    (hself : d.resolve ⟨.root, place⟩ = .ok ⟨.root, place⟩) :
    scanRoutes d' ⟨.root, place⟩ = scanRoutes d ⟨.root, place⟩ := by
  have hself' := h.resolve_eq hdisk hstraight hfolder hself
  have hsame := h.sameBelow hdisk hstraight hfolder
  have hsel := fun name (hname : isUnread name = true) => isCandidate_routeSelection hname
  have hcollect := hsame.collect_eq hdisk hdisk' hself hself' hsel
  simp only [scanRoutes, Disk.routeSources, hcollect, bind, Except.bind]
  rcases Disk.collect_of_resolve routeSelection hdisk hself with
    ⟨-, hlong⟩ | ⟨-, files, hfiles, hmem, -⟩
  · rw [hlong]
  rw [hfiles]
  dsimp only
  congr 2
  refine List.filterMap_congr fun names hnames => ?_
  rw [h.readSource_eq hdisk hstraight hfolder hsel ((hmem names).1 hnames)]

/-- **The standard scanners find the same in the folder**, if the audit tool does the same. -/
theorem Disk.DiffersUnread.gather_eq (h : m.disk.DiffersUnread m'.disk place)
    (htool : m'.auditTool = m.auditTool) (hdisk : m.disk.top.Named IsEntryName)
    (hdisk' : m'.disk.Distinct) (hstraight : Straight m.disk.top place.reverse)
    (hfolder : m.disk.top.find? place = some (.folder entries))
    (hself : m.disk.resolve ⟨.root, place⟩ = .ok ⟨.root, place⟩) :
    gather ProjectScanner.standard m' ⟨.root, place⟩ =
      gather ProjectScanner.standard m ⟨.root, place⟩ := by
  have hdependencies : scanDependencies m' ⟨.root, place⟩ = scanDependencies m ⟨.root, place⟩ := by
    unfold scanDependencies
    rw [h.exists?_package_eq hfolder, htool]
  rw [gather_standard, gather_standard, hdependencies,
    RuleSet.scanProject_unread (by simp) h hdisk hdisk' hstraight hfolder hself,
    RuleSet.scanProject_unread (by simp) h hdisk hdisk' hstraight hfolder hself,
    scanRoutes_unread h hdisk hdisk' hstraight hfolder hself]

end Scanners

end WorkspaceAudit
