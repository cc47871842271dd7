import WorkspaceAudit.Proofs.Files.Sound
import WorkspaceAudit.Proofs.Workspace.Actions
import WorkspaceAudit.Workspace.Discovery

/-!
# Projects that are found

- `Path.ofString_text`: a path that is made of names as they are written can be shown and read
  again.
- `Project.exists_entry_of_mem_discover`: the projects of a workspace are folders in it, named for
  their entries.
- `Project.nodup_names_of_discover`: they have different names;
  `Project.endsIn_name_of_mem_discover`: they are folders of these names, unless they are links.
- `Project.find?_cases`: the project of a name or path is one of the workspace, or the folder at
  the path.
- `Project.exists_endsIn_of_find?`: the path of a project that has been found ends in a folder.
-/

namespace WorkspaceAudit

/-! ## Paths that are shown and read again -/

/-- The names of the path are as they are read from a text. -/
def Path.Written (p : Path) : Prop :=
  ∀ name ∈ p.names, name ≠ "" ∧ name ≠ "." ∧ '/' ∉ name.toList

namespace Path

variable {p : Path}

theorem written_ofString (s : String) : (Path.ofString s).Written := by
  intro name hname
  obtain ⟨-, hkept⟩ := List.mem_filter.1 hname
  simp only [Bool.and_eq_true, bne_iff_ne] at hkept
  exact ⟨hkept.1, hkept.2, slashFree_ofString s name hname⟩

theorem written_of_isEntryName (h : ∀ name ∈ p.names, IsEntryName name) : p.Written := by
  intro name hname
  obtain ⟨hplain, hslash, -⟩ := h name hname
  exact ⟨hplain.1, hplain.2.1, hslash⟩

theorem Written.extend (h : p.Written) {names : List String}
    (hnames : ∀ name ∈ names, IsEntryName name) : (p.extend names).Written := by
  intro name hname
  rcases List.mem_append.1 hname with hname | hname
  · exact h name hname
  · exact written_of_isEntryName (p := ⟨.root, names⟩) hnames name hname

/-- The names of a written path, whatever slashes stand in front of it. -/
theorem namesOf_slashes {names : List String} (hne : names ≠ [])
    (hnames : ∀ name ∈ names, name ≠ "" ∧ name ≠ "." ∧ '/' ∉ name.toList) (slashes : Nat) :
    namesOf (List.replicate slashes '/' ++ (Text.join "/" names).toList) = names := by
  induction slashes with
  | zero =>
    have hparts := slashParts_join hne fun name hname => (hnames name hname).2.2
    unfold slashParts at hparts
    rw [List.replicate_zero, List.nil_append, namesOf, hparts, List.filter_eq_self]
    intro name hname
    obtain ⟨hempty, hdot, -⟩ := hnames name hname
    simp [hempty, hdot]
  | succ slashes ih =>
    have hsplit := Text.splitOn_append (List.not_mem_nil : '/' ∉ ([] : List Char))
      (List.replicate slashes '/' ++ (Text.join "/" names).toList)
    rw [List.nil_append] at hsplit
    rw [List.replicate_succ, List.cons_append, namesOf, hsplit, List.map_cons,
      List.filter_cons_of_neg (by simp)]
    exact ih

theorem exists_head_join {names : List String} (hne : names ≠ [])
    (hnames : ∀ name ∈ names, name ≠ "" ∧ name ≠ "." ∧ '/' ∉ name.toList) :
    ∃ c rest, (Text.join "/" names).toList = c :: rest ∧ c ≠ '/' := by
  cases names with
  | nil => exact absurd rfl hne
  | cons first more =>
    obtain ⟨hempty, -, hslash⟩ := hnames first List.mem_cons_self
    obtain ⟨c, rest, hchars⟩ : ∃ c rest, first.toList = c :: rest :=
      List.exists_cons_of_ne_nil fun hnil => hempty (String.toList_inj.1 (by simpa using hnil))
    refine ⟨c, ?_⟩
    have hc : c ≠ '/' := by
      rintro rfl
      exact hslash (by simp [hchars])
    cases more with
    | nil => exact ⟨rest, by simpa [Text.join] using hchars, hc⟩
    | cons second more =>
      exact ⟨rest ++ '/' :: (Text.join "/" (second :: more)).toList,
        by simp [Text.join, hchars], hc⟩

/-- **A path of written names can be shown and read again.** -/
theorem ofString_text (h : p.Written) : Path.ofString p.text = p := by
  obtain ⟨anchor, names⟩ := p
  by_cases hne : names = []
  · subst hne
    cases anchor <;> decide
  obtain ⟨c, rest, hchars, hc⟩ := exists_head_join hne h
  obtain ⟨slashes, hslashes, hanchor⟩ : ∃ slashes,
      anchor.text.toList = List.replicate slashes '/' ∧
        Anchor.ofChars (List.replicate slashes '/' ++ (Text.join "/" names).toList) = anchor := by
    cases anchor with
    | here => exact ⟨0, rfl, by simp [Anchor.ofChars, hchars, hc]⟩
    | root => exact ⟨1, rfl, by simp [Anchor.ofChars, hchars, hc]⟩
    | doubleRoot => exact ⟨2, rfl, by simp [Anchor.ofChars, hchars, hc, List.replicate]⟩
  have hplain : (plainText ⟨anchor, names⟩).toList =
      List.replicate slashes '/' ++ (Text.join "/" names).toList := by
    rw [plainText, String.toList_append, hslashes]
  have htext : text ⟨anchor, names⟩ = plainText ⟨anchor, names⟩ := by
    rw [text, if_neg]
    intro hempty
    rw [beq_iff_eq.1 hempty, hchars] at hplain
    simp at hplain
  rw [htext, Path.ofString, hplain, hanchor, namesOf_slashes hne h]

end Path

namespace Machine

variable {m : Machine} {p q : Path}

theorem written_homeOfText {text : String} (h : homeOfText text = .ok p) : p.Written := by
  unfold homeOfText at h
  split at h
  · obtain rfl := Except.ok.inj h
    rintro name ⟨⟩
  split at h
  · cases h
  · obtain rfl := Except.ok.inj h
    exact Path.written_ofString text

theorem written_accountHome {name : String} (h : m.accountHome name = .ok p) : p.Written := by
  unfold accountHome at h
  split at h
  · exact written_homeOfText h
  · cases h

theorem written_home (h : m.home = .ok p) : p.Written := by
  unfold home at h
  split at h
  · exact written_homeOfText h
  · exact written_accountHome h

theorem written_expandHome (hp : p.Written) (h : m.expandHome p = .ok q) : q.Written := by
  obtain ⟨anchor, names⟩ := p
  have hhome {x : Except Fault Path} {name : String} {rest : List String}
      (hnames : names = name :: rest) (hx : ∀ home, x = .ok home → home.Written)
      (h : x.map (fun home => home.extend rest) = .ok q) : q.Written := by
    cases x with
    | error fault => cases h
    | ok home =>
      obtain rfl := Except.ok.inj h
      intro name hname
      rcases List.mem_append.1 hname with hname | hname
      · exact hx home rfl name hname
      · exact hp name (by simp [hnames, hname])
  unfold expandHome at h
  split at h
  · rename_i hnames
    split at h
    · exact hhome hnames (fun _ => written_home) h
    · exact hhome hnames (fun _ => written_accountHome) h
    · obtain rfl := Except.ok.inj h
      exact hp
  · obtain rfl := Except.ok.inj h
    exact hp

end Machine

namespace Disk

open Node

variable {d : Disk} {p : Path}

/-- The folder that is listed. -/
theorem locate_of_list {entries : List (String × Node)} (h : d.list p = .ok entries) :
    ∃ names, d.locate p .target = .ok (.found names (.folder entries)) := by
  unfold list Disk.entries at h
  split at h
  · cases h
  split at h
  · obtain rfl := Except.ok.inj h
    exact ⟨_, ‹_›⟩
  all_goals cases h

end Disk

/-! ## Projects -/

theorem Config.written_workspace {m : Machine} {config : Config} {root : Path}
    (hd : m.disk.Sound) (h : config.workspace m = .ok root) : root.Written := by
  unfold workspace at h
  split at h
  · exact Machine.written_expandHome (Path.written_ofString _) h
  · obtain rfl := Except.ok.inj h
    exact Path.written_of_isEntryName hd.isEntryName_here

namespace Project

variable {m : Machine} {d : Disk} {p : Project} {path root : Path} {projects : List Project}
  {config : Config} {excluded : List String}

theorem of_describe (h : describe d path = .ok (some p)) :
    p.name = path.name ∧ p.path = path.text := by
  unfold describe at h
  obtain ⟨hasManifest, -, h⟩ := exists_ok_of_bind h
  cases hasManifest with
  | true =>
    rw [if_pos rfl] at h
    obtain ⟨manifest, -, h⟩ := exists_ok_of_bind h
    cases manifest with
    | none =>
      obtain rfl := Option.some.inj (Except.ok.inj h)
      exact ⟨rfl, rfl⟩
    | some members =>
      dsimp only at h
      cases hproject : ofManifest path members with
      | error fault =>
        rw [hproject] at h
        cases h
      | ok other =>
        rw [hproject] at h
        obtain rfl := Option.some.inj (Except.ok.inj h)
        unfold ofManifest at hproject
        obtain ⟨phase, -, hproject⟩ := exists_ok_of_bind hproject
        split at hproject
        · obtain rfl := Except.ok.inj hproject
          exact ⟨rfl, rfl⟩
        · cases hproject
  | false =>
    obtain ⟨marked, -, h⟩ := exists_ok_of_bind h
    cases marked with
    | true =>
      obtain rfl := Option.some.inj (Except.ok.inj h)
      exact ⟨rfl, rfl⟩
    | false => cases h

theorem of_ofEntry {name : String} (h : ofEntry d root excluded name = .ok (some p)) :
    d.isFolder? (root.extend [name]) = .ok true ∧ p.name = name ∧
      p.path = (root.extend [name]).text := by
  unfold ofEntry at h
  obtain ⟨isFolder, hfolder, h⟩ := exists_ok_of_bind h
  split at h
  · rename_i hvisible
    obtain ⟨rfl, -⟩ := Bool.and_eq_true_iff.1 hvisible
    obtain ⟨hname, hpath⟩ := of_describe h
    rw [Path.name, Path.extend, List.getLastD_concat] at hname
    exact ⟨hfolder, hname, hpath⟩
  · cases h

/-- The projects of a workspace come from its entries, if there are any. -/
theorem discover_cases (h : discover d root excluded = .ok projects) :
    projects = [] ∨ ∃ entries found, d.list root = .ok entries ∧
      (entries.map Prod.fst).mapM (ofEntry d root excluded) = .ok found ∧
      projects = sortProjects (found.filterMap id) := by
  unfold discover at h
  obtain ⟨isFolder, -, h⟩ := exists_ok_of_bind h
  cases isFolder with
  | false => exact .inl (Except.ok.inj h).symm
  | true =>
    rw [if_pos rfl] at h
    cases hlist : d.list root with
    | error fault =>
      rw [hlist] at h
      exact .inl (Except.ok.inj h).symm
    | ok entries =>
      rw [hlist] at h
      obtain ⟨found, hfound, h⟩ := exists_ok_of_bind h
      refine .inr ⟨entries, found, rfl, ?_, (Except.ok.inj h).symm⟩
      rw [List.mapM_map]
      exact hfound

/-- **The projects of a workspace are folders in it**, named for their entries. -/
theorem exists_entry_of_mem_discover (h : discover d root excluded = .ok projects)
    (hp : p ∈ projects) : ∃ entries node, d.list root = .ok entries ∧ (p.name, node) ∈ entries ∧
      d.isFolder? (root.extend [p.name]) = .ok true ∧ p.path = (root.extend [p.name]).text := by
  obtain rfl | ⟨entries, found, hlist, hfound, rfl⟩ := discover_cases h
  · cases hp
  · obtain ⟨found?, hmem, rfl⟩ := List.mem_filterMap.1 (mem_sortByName.1 hp)
    obtain ⟨name, hname, hofEntry⟩ := exists_of_mem_mapM hfound hmem
    obtain ⟨⟨_, node⟩, hentry, rfl⟩ := List.mem_map.1 hname
    obtain ⟨hfolder, rfl, hpath⟩ := of_ofEntry hofEntry
    exact ⟨entries, node, hlist, hentry, hfolder, hpath⟩

theorem names_sublist_of_mapM {names : List String} {found : List (Option Project)}
    (h : names.mapM (ofEntry d root excluded) = .ok found) :
    ((found.filterMap id).map Project.name).Sublist names := by
  induction names generalizing found with
  | nil =>
    obtain rfl := Except.ok.inj h
    exact .slnil
  | cons name names ih =>
    rw [List.mapM_cons] at h
    obtain ⟨first, hfirst, hmore⟩ := exists_ok_of_bind h
    obtain ⟨others, hothers, hfound⟩ := exists_ok_of_bind hmore
    obtain rfl := Except.ok.inj hfound
    cases first with
    | none => exact (ih hothers).cons name
    | some p =>
      obtain ⟨-, rfl, -⟩ := of_ofEntry hfirst
      exact (ih hothers).cons_cons p.name

/-- **The projects of a workspace have different names.** -/
theorem nodup_names_of_discover (hd : d.Distinct) (h : discover d root excluded = .ok projects) :
    (projects.map Project.name).Nodup := by
  obtain rfl | ⟨entries, found, hlist, hfound, rfl⟩ := discover_cases h
  · exact .nil
  · obtain ⟨names, hlocate⟩ := Disk.locate_of_list hlist
    have hnodup : (entries.map Prod.fst).Nodup := by
      cases hd.find? (Disk.locate_leads hlocate).2.1 with
      | folder distinct _ _ => exact distinct
    refine List.Perm.nodup ?_ (hnodup.sublist (names_sublist_of_mapM hfound))
    exact ((perm_sortByName _ _).map Project.name).symm

/-- The path of a project of a workspace is read as it is shown. -/
theorem ofString_path_of_mem_discover (hd : d.Sound) (hroot : root.Written)
    (h : discover d root excluded = .ok projects) (hp : p ∈ projects) :
    Path.ofString p.path = root.extend [p.name] ∧ IsEntryName p.name := by
  obtain ⟨entries, node, hlist, hentry, -, hpath⟩ := exists_entry_of_mem_discover h hp
  obtain ⟨names, hlocate⟩ := Disk.locate_of_list hlist
  have hname : IsEntryName p.name := by
    cases hd.named.find? (Disk.locate_leads hlocate).2.1 with
    | folder _ hnames _ => exact hnames _ hentry
  rw [hpath]
  exact ⟨Path.ofString_text (hroot.extend (List.forall_mem_singleton.2 hname)), hname⟩

/-- **The project of a name or path** is one of the workspace, or the folder at the path. -/
theorem find?_cases {target : String} (h : find? m config target = .ok (some p)) :
    (∃ root projects, config.workspace m = .ok root ∧
      discover m.disk root config.excluded = .ok projects ∧ p ∈ projects) ∨
    ∃ path root, m.disk.isFolder? path = .ok true ∧ m.disk.resolve path = .ok root ∧
      p = plain root := by
  unfold find? at h
  obtain ⟨root, hroot, h⟩ := exists_ok_of_bind h
  obtain ⟨projects, hprojects, h⟩ := exists_ok_of_bind h
  split at h
  · rename_i q hfind
    obtain rfl := Option.some.inj (Except.ok.inj h)
    exact .inl ⟨root, projects, hroot, hprojects, List.mem_of_find?_eq_some hfind⟩
  · obtain ⟨path, -, h⟩ := exists_ok_of_bind h
    obtain ⟨isFolder, hfolder, h⟩ := exists_ok_of_bind h
    cases isFolder with
    | false => cases h
    | true =>
      rw [if_pos rfl] at h
      obtain ⟨place, hplace, h⟩ := exists_ok_of_bind h
      exact .inr ⟨path, place, hfolder, hplace, (Option.some.inj (Except.ok.inj h)).symm⟩

theorem exists_endsIn_of_mem_discover (hd : m.disk.Sound) (hroot : config.workspace m = .ok root)
    (h : discover m.disk root config.excluded = .ok projects) (hp : p ∈ projects) :
    ∃ place, m.disk.EndsIn (.ofString p.path) place := by
  obtain ⟨-, -, -, -, hfolder, -⟩ := exists_entry_of_mem_discover h hp
  rw [(ofString_path_of_mem_discover hd (Config.written_workspace hd hroot) h hp).1]
  exact Disk.exists_endsIn_of_isFolder? hfolder

/-- **The path of a project ends in a folder of its name**, unless it is a link. -/
theorem endsIn_name_of_mem_discover {entries : List (String × Node)} {place : List String}
    (hd : m.disk.Sound) (hroot : config.workspace m = .ok root)
    (hlist : m.disk.list root = .ok entries)
    (h : discover m.disk root config.excluded = .ok projects) (hp : p ∈ projects)
    (hlink : ∀ target, (p.name, .link target) ∉ entries)
    (hplace : m.disk.EndsIn (.ofString p.path) place) : Path.name ⟨.root, place⟩ = p.name := by
  obtain ⟨hpath, hname⟩ :=
    ofString_path_of_mem_discover hd (Config.written_workspace hd hroot) h hp
  obtain ⟨names, hlocate⟩ := Disk.locate_of_list hlist
  rw [hpath] at hplace
  obtain ⟨n, -, hleads⟩ := hplace.leads
  rcases (Disk.endsIn_of_locate hlocate).last_of_leads hname.1 hleads with rfl | ⟨target, hfound⟩
  · rw [Path.name, List.getLastD_concat]
  · exact absurd (Node.mem_of_find?_concat (Disk.locate_leads hlocate).2.1 hfound) (hlink target)

/-- **The path of a project that has been found ends in a folder.** -/
theorem exists_endsIn_of_find? {target : String} (hd : m.disk.Sound)
    (h : find? m config target = .ok (some p)) :
    ∃ place, m.disk.EndsIn (.ofString p.path) place := by
  rcases find?_cases h with ⟨root, projects, hroot, hprojects, hp⟩ |
    ⟨path, root, hfolder, hresolve, rfl⟩
  · exact exists_endsIn_of_mem_discover hd hroot hprojects hp
  · obtain ⟨place, hplace⟩ := Disk.exists_endsIn_of_isFolder? hfolder
    obtain rfl := Except.ok.inj (hresolve.symm.trans (hplace.resolve_eq hd))
    have hwritten : Path.Written ⟨.root, place⟩ :=
      Path.written_of_isEntryName (hplace.isEntryName hd)
    refine ⟨place, ?_⟩
    rw [plain, Path.ofString_text hwritten]
    exact hplace.self hd

end Project

end WorkspaceAudit
