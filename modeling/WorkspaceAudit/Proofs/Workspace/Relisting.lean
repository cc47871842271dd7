import Mathlib.Data.List.Nodup
import WorkspaceAudit.Proofs.Workspace.Distinct
import WorkspaceAudit.Proofs.Workspace.Isolation

/-!
# Projects in the order of the system

A workspace is listed in the order of the system, and its projects are sorted by their names in
small letters. Projects whose names differ in more than that are in one order in any listing; of
those whose names do not, the one that is listed first comes first.

- `filter_key_sortByName`: sorting by names leaves those of one key in their order;
  `nodup_keys_of_reverse`: if it does not matter which way round they stood, there are no two of
  one key.
- `Disk.Agrees.list_cases`: disks that agree list the same names.
- `Node.agrees_put`, `Disk.exists_reversed`: a disk on which one folder is listed the other way
  round.
- `Project.discover_agrees_cases`: all that can come of a workspace that is listed in another order;
  `Project.discover_of_agrees`: its projects.
- `Project.discover_relisted`: exactly when the order of the listing does not matter.
-/

namespace WorkspaceAudit

/-! ## Sorting by names -/

section Sorting

variable {α : Type} {key : α → String} {xs ys : List α}

theorem sortByName_of_pairwise (h : xs.Pairwise fun x y => key x ≤ key y) :
    sortByName key xs = xs := by
  induction xs with
  | nil => rfl
  | cons x xs ih =>
    obtain ⟨hx, hxs⟩ := List.pairwise_cons.1 h
    have hrest : sortBy (fun x y => decide (key x ≤ key y)) xs = xs := ih hxs
    rw [sortByName, sortBy, List.foldr_cons, ← sortBy, hrest]
    exact insertSorted_of_le fun y hy => decide_eq_true (hx y hy)

/-- **Those of one key stay in their order.** -/
theorem filter_key_sortByName (k : String) :
    (sortByName key xs).filter (key · == k) = xs.filter (key · == k) := by
  rw [filter_sortByName]
  refine sortByName_of_pairwise (List.pairwise_of_forall_mem_list fun x hx y hy => ?_)
  have hx : key x = k := beq_iff_eq.1 (List.mem_filter.1 hx).2
  have hy : key y = k := beq_iff_eq.1 (List.mem_filter.1 hy).2
  exact (hx.trans hy.symm) ▸ String.le_refl (key x)

/-- The keys stand in one order. -/
theorem map_key_sortByName (h : xs.Perm ys) :
    (sortByName key xs).map key = (sortByName key ys).map key := by
  have hsorted (zs : List α) : ((sortByName key zs).map key).Pairwise (· ≤ ·) :=
    List.pairwise_map.2 ((pairwise_sortByName key zs).imp of_decide_eq_true)
  refine List.Perm.eq_of_pairwise (fun _ _ _ _ => String.le_antisymm) (hsorted xs) (hsorted ys) ?_
  exact ((perm_sortByName key xs).trans (h.trans (perm_sortByName key ys).symm)).map key

/-- **If no two keys are the same, all stand in one order.** -/
theorem sortByName_eq_of_perm (h : xs.Perm ys) (hkeys : (xs.map key).Nodup) :
    sortByName key xs = sortByName key ys := by
  refine List.Perm.eq_of_pairwise (fun x y _ _ hlt hgt => ?_) (pairwise_lt_sortByName hkeys)
    (pairwise_lt_sortByName ((h.map key).nodup_iff.1 hkeys)) ?_
  · exact absurd hgt (String.lt_asymm hlt)
  · exact (perm_sortByName key xs).trans (h.trans (perm_sortByName key ys).symm)

theorem length_le_one_of_reverse_eq (h : xs.reverse = xs) (hxs : xs.Nodup) : xs.length ≤ 1 := by
  cases xs with
  | nil => exact Nat.zero_le 1
  | cons x rest =>
    cases rest with
    | nil => exact Nat.le_refl 1
    | cons y rest =>
      have hlast : (y :: rest).getLast? = some x := by
        rw [← List.getLast?_cons_cons, ← List.head?_reverse, h, List.head?_cons]
      exact absurd (List.mem_of_getLast? hlast) (List.nodup_cons.1 hxs).1

/-- **If it does not matter which way round they stood, no two keys are the same.** -/
theorem nodup_keys_of_reverse (h : sortByName key xs.reverse = sortByName key xs)
    (hxs : xs.Nodup) : (xs.map key).Nodup := by
  refine List.nodup_iff_count_le_one.2 fun k => ?_
  have hsame : (xs.filter (key · == k)).reverse = xs.filter (key · == k) := by
    rw [← List.filter_reverse, ← filter_key_sortByName, h, filter_key_sortByName]
  rw [List.count, List.countP_map, List.countP_eq_length_filter]
  exact length_le_one_of_reverse_eq hsame (hxs.filter _)

end Sorting

/-! ## Disks -/

/-- An agreeing node may take the place of another one. -/
theorem Node.agrees_put {top node other : Node} {place : List String}
    (h : top.find? place = some node) (hnode : node.Agrees other) :
    top.Agrees (top.put place other) := by
  intro names
  rcases find?_put_cases h other names with ⟨rest, -, hold, hnew⟩ | ⟨es, es', hold, hnew⟩ | hsame
  · rw [hold, hnew]
    exact hnode rest
  · rw [hold, hnew]
    rfl
  · rw [hsame]

namespace Disk

open Node

variable {d d' : Disk} {p : Path} {entries : List (String × Node)}

theorem Agrees.isFolder?_eq (h : d.Agrees d') (p : Path) : d.isFolder? p = d'.isFolder? p := by
  unfold isFolder? node?
  have houtcome := h.locate p .target
  generalize d.locate p .target = outcome, d'.locate p .target = outcome' at houtcome ⊢
  cases houtcome with
  | found names hnode =>
    rcases hnode.file_or_link_or_folder with ⟨_, rfl, rfl⟩ | ⟨_, rfl, rfl⟩ | ⟨_, _, rfl, rfl⟩
    all_goals rfl
  | free folder name => rfl
  | error fault => rfl

theorem Agrees.exists?_eq (h : d.Agrees d') (p : Path) : d.exists? p = d'.exists? p := by
  unfold exists? node?
  have houtcome := h.locate p .target
  generalize d.locate p .target = outcome, d'.locate p .target = outcome' at houtcome ⊢
  cases houtcome <;> rfl

theorem Agrees.readText_eq (h : d.Agrees d') (p : Path) : d.readText p = d'.readText p := by
  rw [readText, readText, readExact, readExact, h.readBytes_eq]

theorem nodup_names_of_list (hd : d.Distinct) (h : d.list p = .ok entries) :
    (entries.map Prod.fst).Nodup := by
  obtain ⟨names, hlocate⟩ := locate_of_list h
  cases hd.find? (locate_leads hlocate).2.1 with
  | folder distinct _ _ => exact distinct

theorem mem_names_iff {name : String} :
    name ∈ entries.map Prod.fst ↔ (entries.lookup name).isSome = true := by
  simp [List.lookup_isSome_iff]

/-- **Disks that agree list the same names**, or neither lists any. -/
theorem Agrees.list_cases (h : d.Agrees d') (hd : d.Distinct) (hd' : d'.Distinct) (p : Path) :
    (∃ fault, d.list p = .error fault ∧ d'.list p = .error fault) ∨
    ∃ entries entries', d.list p = .ok entries ∧ d'.list p = .ok entries' ∧
      (entries'.map Prod.fst).Perm (entries.map Prod.fst) := by
  have hfolders : (∃ fault, d.list p = .error fault ∧ d'.list p = .error fault) ∨
      ∃ entries entries', d.list p = .ok entries ∧ d'.list p = .ok entries' ∧
        (Node.folder entries).Agrees (.folder entries') := by
    unfold list Disk.entries
    rw [h.isClosed_eq]
    split
    · exact .inl ⟨_, rfl, rfl⟩
    have houtcome := h.locate p .target
    generalize d.locate p .target = outcome, d'.locate p .target = outcome' at houtcome ⊢
    cases houtcome with
    | found names hnode =>
      rcases hnode.file_or_link_or_folder with ⟨_, rfl, rfl⟩ | ⟨_, rfl, rfl⟩ | ⟨_, _, rfl, rfl⟩
      · exact .inl ⟨_, rfl, rfl⟩
      · exact .inl ⟨_, rfl, rfl⟩
      · exact .inr ⟨_, _, rfl, rfl, hnode⟩
    | free folder name => exact .inl ⟨_, rfl, rfl⟩
    | error fault => exact .inl ⟨_, rfl, rfl⟩
  refine hfolders.imp_right ?_
  rintro ⟨entries, entries', hlist, hlist', hagrees⟩
  refine ⟨entries, entries', hlist, hlist', (List.perm_ext_iff_of_nodup
    (nodup_names_of_list hd' hlist') (nodup_names_of_list hd hlist)).2 fun name => ?_⟩
  rw [mem_names_iff, mem_names_iff]
  rcases hagrees.lookup name with ⟨hnone, hnone'⟩ | ⟨_, _, hsome, hsome', -⟩
  · rw [hnone, hnone']
  · rw [hsome, hsome']
    exact Iff.rfl

/-- **A folder may be listed the other way round.** -/
theorem exists_reversed (hd : d.Distinct) (h : d.list p = .ok entries) :
    ∃ d' : Disk, d'.Distinct ∧ d.Agrees d' ∧ d'.list p = .ok entries.reverse := by
  obtain ⟨place, hlocate⟩ := locate_of_list h
  have hplace := (locate_leads hlocate).2.1
  have hclosed : d.isClosed p = false := by
    by_contra hclosed
    rw [list, if_pos (by simpa using hclosed)] at h
    cases h
  cases hd.find? hplace with
  | folder distinct names nodes =>
    have hreversed : (Node.folder entries.reverse).Named fun _ => True := by
      refine .folder ?_ (fun _ _ => trivial) fun entry hentry => nodes entry (by simpa using hentry)
      rw [List.map_reverse]
      exact List.nodup_reverse.2 distinct
    have hagrees : d.Agrees { d with top := d.top.put place (.folder entries.reverse) } :=
      ⟨agrees_put hplace (agrees_of_perm entries.reverse_perm.symm distinct), rfl, rfl⟩
    refine ⟨{ d with top := d.top.put place (.folder entries.reverse) },
      named_put hd hreversed place, hagrees, ?_⟩
    -- Being at the place is not enough for the listing: the path has to lead there in the new disk,
    -- too.
    obtain ⟨other, hother, -⟩ := (hagrees.locate p .target).exists_found hlocate
    have hfound := (find?_put hplace (.folder entries.reverse)).symm.trans (locate_leads hother).2.1
    obtain rfl := Option.some.inj hfound
    rw [list, ← hagrees.isClosed_eq, hclosed, if_neg Bool.false_ne_true, Disk.entries, hother]

end Disk

/-! ## Projects -/

namespace Project

variable {d d' : Disk} {root : Path} {excluded : List String} {projects : List Project}
  {entries : List (String × Node)}

/-- The name of a project in small letters. -/
def lowerName (p : Project) : String := Text.lower p.name

/-- The project of an entry, if there is one and it is no fault. -/
def ofName? (d : Disk) (root : Path) (excluded : List String) (name : String) : Option Project :=
  (ofEntry d root excluded name).toOption.join

/-- The projects of entries that are no fault, in the order of the entries. -/
def listed (d : Disk) (root : Path) (excluded : List String) (entries : List (String × Node)) :
    List Project :=
  (entries.map Prod.fst).filterMap (ofName? d root excluded)

theorem name_of_ofName? {entry : String} {p : Project}
    (h : ofName? d root excluded entry = some p) : p.name = entry := by
  unfold ofName? at h
  cases hentry : ofEntry d root excluded entry with
  | error fault =>
    rw [hentry] at h
    cases h
  | ok found =>
    rw [hentry] at h
    obtain rfl : found = some p := h
    exact (of_ofEntry hentry).2.1

/-- Projects have the names of their entries, in the order of these. -/
theorem names_listed_sublist :
    ((listed d root excluded entries).map name).Sublist (entries.map Prod.fst) := by
  unfold listed
  induction entries.map Prod.fst with
  | nil => exact .slnil
  | cons entry names ih =>
    rw [List.filterMap_cons]
    cases hentry : ofName? d root excluded entry with
    | none => exact ih.cons _
    | some p =>
      rw [List.map_cons, name_of_ofName? hentry]
      exact ih.cons_cons _

theorem ofEntries_eq (h : ¬Fails (ofEntries d root excluded entries)) :
    ofEntries d root excluded entries = .ok (listed d root excluded entries) := by
  unfold listed
  induction entries with
  | nil => rfl
  | cons entry entries ih =>
    rw [ofEntries_cons] at h ⊢
    cases hfirst : ofEntry d root excluded entry.1 with
    | error fault => exact absurd ⟨fault, by rw [hfirst]; rfl⟩ h
    | ok first =>
      have hrest : ¬Fails (ofEntries d root excluded entries) := by
        rintro ⟨fault, hfault⟩
        exact h ⟨fault, by rw [hfirst, hfault]; rfl⟩
      have hentry : ofName? d root excluded entry.1 = first := by
        rw [ofName?, hfirst]
        rfl
      rw [ih hrest, List.map_cons, List.filterMap_cons, hentry]
      cases first <;> rfl

theorem fails_ofEntries_iff : Fails (ofEntries d root excluded entries) ↔
    ∃ name ∈ entries.map Prod.fst, Fails (ofEntry d root excluded name) := by
  rw [ofEntries, fails_map_iff, fails_mapM_iff]
  simp

theorem ofEntries_of_agrees (h : d.Agrees d') :
    ofEntries d' root excluded entries = ofEntries d root excluded entries := by
  have hentry (name : String) : ofEntry d' root excluded name = ofEntry d root excluded name :=
    ofEntry_congr fun p _ =>
      ⟨(h.isFolder?_eq p).symm, (h.exists?_eq p).symm, (h.readText_eq p).symm⟩
  simp only [ofEntries, hentry]

section Agreeing

variable (h : d.Agrees d') (hd : d.Distinct) (hd' : d'.Distinct)

include h hd hd'

/-- **Disks that agree have the same projects**, listed in one order or another: both have a fault,
or there is no listing, or those of both listings are sorted. -/
theorem discover_agrees_cases :
    (Fails (discover d root excluded) ∧ Fails (discover d' root excluded)) ∨
    (discover d root excluded = .ok [] ∧ discover d' root excluded = .ok []) ∨
    ∃ entries entries', d.list root = .ok entries ∧ d'.list root = .ok entries' ∧
      (listed d root excluded entries').Perm (listed d root excluded entries) ∧
      discover d root excluded = .ok (sortProjects (listed d root excluded entries)) ∧
      discover d' root excluded = .ok (sortProjects (listed d root excluded entries')) := by
  have hfolder' := h.isFolder?_eq root
  cases hfolder : d.isFolder? root with
  | error fault =>
    rw [hfolder] at hfolder'
    refine .inl ⟨⟨fault, ?_⟩, ⟨fault, ?_⟩⟩
    · simp [discover, hfolder, bind, Except.bind]
    · simp [discover, ← hfolder', bind, Except.bind]
  | ok isFolder =>
    rw [hfolder] at hfolder'
    cases isFolder with
    | false =>
      refine .inr (.inl ⟨?_, ?_⟩)
      · simp [discover, hfolder, bind, Except.bind, pure, Except.pure]
      · simp [discover, ← hfolder', bind, Except.bind, pure, Except.pure]
    | true =>
      rcases h.list_cases hd hd' root with ⟨fault, hlist, hlist'⟩ |
        ⟨entries, entries', hlist, hlist', hnames⟩
      · refine .inr (.inl ⟨?_, ?_⟩)
        · simp [discover, hfolder, hlist, bind, Except.bind, pure, Except.pure]
        · simp [discover, ← hfolder', hlist', bind, Except.bind, pure, Except.pure]
      have hfails : Fails (ofEntries d root excluded entries') ↔
          Fails (ofEntries d root excluded entries) := by
        simp only [fails_ofEntries_iff, hnames.mem_iff]
      rw [discover_eq hfolder hlist, discover_eq hfolder'.symm hlist', ofEntries_of_agrees h]
      by_cases hfault : Fails (ofEntries d root excluded entries)
      · exact .inl ⟨fails_map_iff.2 hfault, fails_map_iff.2 (hfails.2 hfault)⟩
      · refine .inr (.inr ⟨entries, entries', hlist, hlist', hnames.filterMap _, ?_, ?_⟩)
        · rw [ofEntries_eq hfault]
          rfl
        · rw [ofEntries_eq (mt hfails.1 hfault)]
          rfl

theorem fails_discover_of_agrees :
    Fails (discover d' root excluded) ↔ Fails (discover d root excluded) := by
  rcases discover_agrees_cases h hd hd' with ⟨hfails, hfails'⟩ | ⟨hnone, hnone'⟩ |
    ⟨_, _, -, -, -, hfound, hfound'⟩
  · exact iff_of_true hfails' hfails
  · rw [hnone, hnone']
  · rw [hfound, hfound']
    exact iff_of_false (not_fails_ok _) (not_fails_ok _)

variable (hprojects : discover d root excluded = .ok projects)

include hprojects

/-- **The projects of a workspace that is listed in another order.** They are the same ones, and
those of one name in small letters come in the order of the listing. -/
theorem discover_of_agrees :
    ∃ projects', discover d' root excluded = .ok projects' ∧ projects'.Perm projects ∧
      projects'.map lowerName = projects.map lowerName ∧
      ∀ entries', d'.list root = .ok entries' → ∀ letters,
        ((projects'.filter (lowerName · == letters)).map name).Sublist (entries'.map Prod.fst) := by
  rcases discover_agrees_cases h hd hd' with ⟨⟨fault, hfault⟩, -⟩ | ⟨hnone, hnone'⟩ |
    ⟨entries, entries', -, hlist', hperm, hfound, hfound'⟩
  · cases hfault.symm.trans hprojects
  · obtain rfl := Except.ok.inj (hnone.symm.trans hprojects)
    exact ⟨[], hnone', .refl _, rfl, fun _ _ _ => List.nil_sublist _⟩
  · obtain rfl := Except.ok.inj (hfound.symm.trans hprojects)
    refine ⟨_, hfound', ?_, map_key_sortByName hperm, fun others hothers letters => ?_⟩
    · exact (perm_sortByName _ _).trans (hperm.trans (perm_sortByName _ _).symm)
    · obtain rfl := Except.ok.inj (hlist'.symm.trans hothers)
      have hties (found : List Project) : (sortProjects found).filter (lowerName · == letters) =
          found.filter (lowerName · == letters) := filter_key_sortByName letters
      rw [hties]
      exact (List.filter_sublist.map name).trans names_listed_sublist

/-- **If no two names are the same in small letters, the order of the listing does not matter.** -/
theorem discover_eq_of_nodup (hnodup : (projects.map lowerName).Nodup) :
    discover d' root excluded = .ok projects := by
  rcases discover_agrees_cases h hd hd' with ⟨⟨fault, hfault⟩, -⟩ | ⟨hnone, hnone'⟩ |
    ⟨entries, entries', -, -, hperm, hfound, hfound'⟩
  · cases hfault.symm.trans hprojects
  · rw [hnone', ← hnone, hprojects]
  · obtain rfl := Except.ok.inj (hfound.symm.trans hprojects)
    have hkeys := ((hperm.trans (perm_sortByName _ _).symm).map lowerName).nodup_iff.2 hnodup
    rw [hfound']
    exact congrArg Except.ok (sortByName_eq_of_perm hperm hkeys)

end Agreeing

/-- **If it does not matter which way round a workspace is listed, no two names of projects are the
same in small letters.** -/
theorem nodup_of_discover_eq (hd : d.Distinct)
    (h : ∀ d' : Disk, d'.Distinct → d.Agrees d' → discover d' root excluded = .ok projects) :
    (projects.map lowerName).Nodup := by
  -- the disk as it is and the one that lists the workspace backwards give the same projects
  have hself := h d hd ⟨fun _ => rfl, rfl, rfl⟩
  obtain rfl | ⟨entries, -, hlist, -⟩ := discover_cases hself
  · exact List.nodup_nil
  obtain ⟨d', hd', hagrees, hlist'⟩ := Disk.exists_reversed hd hlist
  rcases discover_agrees_cases hagrees hd hd' with ⟨⟨fault, hfault⟩, -⟩ | ⟨hnone, -⟩ |
    ⟨same, reversed, hsame, hreversed, -, hfound, hfound'⟩
  · cases hfault.symm.trans hself
  · obtain rfl := Except.ok.inj (hnone.symm.trans hself)
    exact List.nodup_nil
  obtain rfl := Except.ok.inj (hlist.symm.trans hsame)
  obtain rfl := Except.ok.inj (hlist'.symm.trans hreversed)
  obtain rfl := Except.ok.inj (hfound.symm.trans hself)
  have hback : listed d root excluded entries.reverse =
      (listed d root excluded entries).reverse := by
    rw [listed, List.map_reverse, List.filterMap_reverse, ← listed]
  rw [h d' hd' hagrees, hback] at hfound'
  have hnodup : (listed d root excluded entries).Nodup :=
    ((Disk.nodup_names_of_list hd hlist).sublist names_listed_sublist).of_map
  refine ((perm_sortByName _ _).map lowerName).nodup_iff.2 ?_
  exact nodup_keys_of_reverse (Except.ok.inj hfound').symm hnodup

/-- **The order of a listing matters exactly for names that are the same in small letters.** -/
theorem discover_relisted (d : Disk) (root : Path) (excluded : List String) (hd : d.Distinct) :
    (∀ d' : Disk, d'.Distinct → d.Agrees d' →
      (Fails (discover d' root excluded) ↔ Fails (discover d root excluded))) ∧
    ∀ projects, discover d root excluded = .ok projects →
      (∀ d' : Disk, d'.Distinct → d.Agrees d' →
        ∃ projects', discover d' root excluded = .ok projects' ∧ projects'.Perm projects ∧
          projects'.map lowerName = projects.map lowerName ∧
          ∀ entries', d'.list root = .ok entries' → ∀ letters,
            ((projects'.filter (lowerName · == letters)).map name).Sublist
              (entries'.map Prod.fst)) ∧
      ((∀ d' : Disk, d'.Distinct → d.Agrees d' → discover d' root excluded = .ok projects) ↔
        (projects.map lowerName).Nodup) := by
  refine ⟨fun d' hd' h => fails_discover_of_agrees h hd hd', fun projects hprojects => ⟨?_, ?_, ?_⟩⟩
  · intro d' hd' h
    exact discover_of_agrees h hd hd' hprojects
  · exact nodup_of_discover_eq hd
  · intro hnodup d' hd' h
    exact discover_eq_of_nodup h hd hd' hprojects hnodup

/-! ## Two names in small letters -/

/-- Folders of these names, each with the package file of a language. -/
def goFolders (names : List String) : List (String × Node) :=
  names.map fun name => (name, .folder [("go.mod", .file [])])

/-- A disk with a workspace of these folders. -/
def goDisk (names : List String) : Disk where
  top := .folder [("w", .folder (goFolders names))]
  here := []

theorem nodup_goFolders {names : List String} (h : names.Nodup) :
    ((goFolders names).map Prod.fst).Nodup := by
  rw [goFolders, List.map_map]
  exact (List.map_id names).symm ▸ h

theorem distinct_goDisk {names : List String} (h : names.Nodup) : (goDisk names).Distinct := by
  have hfolders : (Node.folder (goFolders names)).Named fun _ => True := by
    refine .folder (nodup_goFolders h) (fun _ _ => trivial) fun entry hentry => ?_
    obtain ⟨name, -, rfl⟩ := List.mem_map.1 hentry
    refine .folder (by simp) (fun _ _ => trivial) fun entry hentry => ?_
    obtain rfl := List.mem_singleton.1 hentry
    exact .file []
  refine .folder (by simp) (fun _ _ => trivial) fun entry hentry => ?_
  obtain rfl := List.mem_singleton.1 hentry
  exact hfolders

theorem agrees_goDisk {names others : List String} (h : names.Perm others) (hnames : names.Nodup) :
    (goDisk names).Agrees (goDisk others) := by
  have hplace : (goDisk names).top.find? ["w"] = some (.folder (goFolders names)) := rfl
  exact ⟨Node.agrees_put hplace (Node.agrees_of_perm (h.map _) (nodup_goFolders hnames)), rfl, rfl⟩

/-- Names that differ in small letters are in one order in any listing. -/
theorem discover_relisted_differing : (goDisk ["beta", "Alpha"]).Distinct ∧
    ∀ d' : Disk, d'.Distinct → (goDisk ["beta", "Alpha"]).Agrees d' →
      discover d' ⟨.root, ["w"]⟩ [] =
        .ok [plain ⟨.root, ["w", "Alpha"]⟩, plain ⟨.root, ["w", "beta"]⟩] := by
  have hd : (goDisk ["beta", "Alpha"]).Distinct := distinct_goDisk (by simp)
  have hprojects : discover (goDisk ["beta", "Alpha"]) ⟨.root, ["w"]⟩ [] =
      .ok [plain ⟨.root, ["w", "Alpha"]⟩, plain ⟨.root, ["w", "beta"]⟩] := by
    decide
  refine ⟨hd, ((discover_relisted _ _ _ hd).2 _ hprojects).2.2 ?_⟩
  decide

/-- Names that are the same in small letters are in the order of the listing. And beside a manifest
that is no text there are no projects at all. -/
theorem discover_relisted_same :
    (goDisk ["Api", "api"]).Distinct ∧ (goDisk ["api", "Api"]).Distinct ∧
    (goDisk ["Api", "api"]).Agrees (goDisk ["api", "Api"]) ∧
    discover (goDisk ["Api", "api"]) ⟨.root, ["w"]⟩ [] =
      .ok [plain ⟨.root, ["w", "Api"]⟩, plain ⟨.root, ["w", "api"]⟩] ∧
    discover (goDisk ["api", "Api"]) ⟨.root, ["w"]⟩ [] =
      .ok [plain ⟨.root, ["w", "api"]⟩, plain ⟨.root, ["w", "Api"]⟩] ∧
    discover (besideDisk [0xff]) ⟨.root, ["w"]⟩ [] = .error .undecodable := by
  refine ⟨distinct_goDisk (by simp), distinct_goDisk (by simp),
    agrees_goDisk (List.Perm.swap ..) (by simp), ?_⟩
  decide

end Project

end WorkspaceAudit
