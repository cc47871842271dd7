import WorkspaceAudit.Files.Walk
import WorkspaceAudit.Proofs.Files.Links

/-!
# Which files are collected

- `Node.Named P`: in every folder of a tree the names are different, and `P` holds of them. With
  `IsEntryName` this is what the system promises of every disk.
- `Selection.Reaches`: a walk goes along names; `Selection.mem_collectNode` and
  `Selection.mem_askedNode`: which files it collects, and about which entries it asks.
- `Selection.collectBelow_eq_filter`: where ignoring a folder means ignoring what lies below it,
  leaving folders out on the way is the same as leaving files out afterwards.
- `Disk.collect_eq`: what is collected below a path, and when the walk ends with a fault because an
  entry is too long to ask about; `Disk.asksTooLong_nest`: it does below many folders with long
  names.
- `Disk.resolve_collected`: a collected file has no link on the way, so its path resolves to its
  names below the folder.
-/

namespace WorkspaceAudit

/-! ## Names in a tree -/

/-- A name that an entry of a folder can have. -/
def IsEntryName (name : String) : Prop :=
  Node.IsPlain name ∧ '/' ∉ name.toList ∧ '\x00' ∉ name.toList

/-- In every folder of the tree the names are different, and `P` holds of them. -/
inductive Node.Named (P : String → Prop) : Node → Prop where
  | file (bytes : List UInt8) : Named P (.file bytes)
  | link (target : String) : Named P (.link target)
  | folder {entries : List (String × Node)} (distinct : (entries.map Prod.fst).Nodup)
      (names : ∀ entry ∈ entries, P entry.1) (nodes : ∀ entry ∈ entries, Named P entry.2) :
      Named P (.folder entries)

theorem lookup_of_nodup {entries : List (String × Node)} {name : String} {node : Node}
    (distinct : (entries.map Prod.fst).Nodup) (h : (name, node) ∈ entries) :
    entries.lookup name = some node := by
  obtain ⟨before, after, rfl⟩ := List.append_of_mem h
  refine List.lookup_eq_some_iff.2 ⟨before, after, rfl, fun entry hentry => ?_⟩
  rw [List.map_append, List.map_cons, List.nodup_append] at distinct
  simpa using (distinct.2.2 _ (List.mem_map_of_mem hentry) name (by simp)).symm

theorem lookup_iff_mem {entries : List (String × Node)} {name : String} {node : Node}
    (distinct : (entries.map Prod.fst).Nodup) :
    entries.lookup name = some node ↔ (name, node) ∈ entries := by
  refine ⟨fun h => ?_, lookup_of_nodup distinct⟩
  obtain ⟨before, after, rfl, _⟩ := List.lookup_eq_some_iff.1 h
  simp

namespace Node.Named

variable {P Q : String → Prop} {node : Node}

theorem mono (h : node.Named P) (himp : ∀ name, P name → Q name) : node.Named Q := by
  induction h with
  | file bytes => exact .file bytes
  | link target => exact .link target
  | folder distinct names _ ih =>
    exact .folder distinct (fun entry h => himp _ (names entry h)) ih

theorem find? {found : Node} {names : List String} (h : node.Named P)
    (hfound : node.find? names = some found) : found.Named P := by
  induction names generalizing node with
  | nil => obtain rfl := Option.some.inj hfound; exact h
  | cons name names ih =>
    simp only [Node.find?] at hfound
    split at hfound
    · rename_i child hchild
      cases h with
      | file bytes => cases hchild
      | link target => cases hchild
      | folder _ _ nodes =>
        obtain ⟨before, after, rfl, _⟩ := List.lookup_eq_some_iff.1 hchild
        exact ih (nodes (name, child) (by simp)) hfound
    · cases hfound

/-- What holds of all names of a tree holds of those that lead somewhere. -/
theorem forall_of_find? {found : Node} {names : List String} (h : node.Named P)
    (hfound : node.find? names = some found) : ∀ name ∈ names, P name := by
  induction names generalizing node with
  | nil => simp
  | cons name names ih =>
    simp only [Node.find?] at hfound
    split at hfound
    · rename_i child hchild
      cases h with
      | file bytes => cases hchild
      | link target => cases hchild
      | folder _ hnames nodes =>
        obtain ⟨before, after, rfl, _⟩ := List.lookup_eq_some_iff.1 hchild
        have hentry : (name, child) ∈ before ++ (name, child) :: after := by simp
        exact List.forall_mem_cons.2 ⟨hnames _ hentry, ih (nodes _ hentry) hfound⟩
    · cases hfound

end Node.Named

/-- No folder has two entries of one name. -/
def Disk.Distinct (d : Disk) : Prop := d.top.Named fun _ => True

theorem Node.find?_folder_eq_some {entries : List (String × Node)} {name : String}
    {names : List String} {found : Node} (distinct : (entries.map Prod.fst).Nodup) :
    (Node.folder entries).find? (name :: names) = some found ↔
      ∃ child, (name, child) ∈ entries ∧ child.find? names = some found := by
  simp only [find?_folder_cons, Option.bind_eq_some_iff, lookup_iff_mem distinct]

/-! ## Sorting by name -/

theorem insertSorted_map {α β : Type} {le : α → α → Bool} {le' : β → β → Bool} {f : α → β}
    (h : ∀ x y, le' (f x) (f y) = le x y) (x : α) (ys : List α) :
    insertSorted le' (f x) (ys.map f) = (insertSorted le x ys).map f := by
  induction ys with
  | nil => rfl
  | cons y ys ih =>
    simp only [List.map_cons, insertSorted, h, ih]
    split <;> rfl

/-- What is put beside the keys has no part in the order. -/
theorem sortByName_map {α β : Type} {key : α → String} {key' : β → String} {f : α → β}
    (h : ∀ x, key' (f x) = key x) (xs : List α) :
    sortByName key' (xs.map f) = (sortByName key xs).map f := by
  induction xs with
  | nil => rfl
  | cons x xs ih =>
    simp only [sortByName, sortBy, List.map_cons, List.foldr_cons] at ih ⊢
    rw [ih]
    exact insertSorted_map (fun x y => by simp [h]) x _

theorem perm_insertSorted {α : Type} (le : α → α → Bool) (x : α) (ys : List α) :
    (insertSorted le x ys).Perm (x :: ys) := by
  induction ys with
  | nil => exact .refl _
  | cons y ys ih =>
    rw [insertSorted]
    split
    · exact .refl _
    · exact (ih.cons y).trans (.swap x y ys)

theorem perm_sortByName {α : Type} (key : α → String) (xs : List α) :
    (sortByName key xs).Perm xs := by
  induction xs with
  | nil => exact .refl _
  | cons x xs ih => exact (perm_insertSorted _ x _).trans (ih.cons x)

theorem mem_sortByName {α : Type} {key : α → String} {y : α} {xs : List α} :
    y ∈ sortByName key xs ↔ y ∈ xs :=
  (perm_sortByName key xs).mem_iff

theorem pairwise_insertSorted {α : Type} {le : α → α → Bool}
    (htotal : ∀ x y, le x y = true ∨ le y x = true)
    (htrans : ∀ x y z, le x y = true → le y z = true → le x z = true) (x : α) {ys : List α}
    (h : ys.Pairwise fun y z => le y z = true) :
    (insertSorted le x ys).Pairwise fun y z => le y z = true := by
  induction ys with
  | nil => simp [insertSorted]
  | cons y ys ih =>
    obtain ⟨hy, hys⟩ := List.pairwise_cons.1 h
    rw [insertSorted]
    split
    · rename_i hxy
      refine List.pairwise_cons.2 ⟨fun z hz => ?_, h⟩
      rcases List.mem_cons.1 hz with rfl | hz
      · exact hxy
      · exact htrans x y z hxy (hy z hz)
    · rename_i hxy
      refine List.pairwise_cons.2 ⟨fun z hz => ?_, ih hys⟩
      rcases List.mem_cons.1 ((perm_insertSorted le x ys).mem_iff.1 hz) with rfl | hz
      · exact (htotal y z).resolve_right hxy
      · exact hy z hz

/-- What is sorted by names stands in their order. -/
theorem pairwise_sortByName {α : Type} (key : α → String) (xs : List α) :
    (sortByName key xs).Pairwise fun x y => decide (key x ≤ key y) = true := by
  induction xs with
  | nil => exact .nil
  | cons x xs ih =>
    refine pairwise_insertSorted (fun x y => ?_) (fun x y z => ?_) x ih
    · simpa using String.le_total (key x) (key y)
    · simpa using String.le_trans

theorem insertSorted_of_le {α : Type} {le : α → α → Bool} {x : α} {ys : List α}
    (h : ∀ y ∈ ys, le x y = true) : insertSorted le x ys = x :: ys := by
  cases ys with
  | nil => rfl
  | cons y ys => rw [insertSorted, if_pos (h y List.mem_cons_self)]

/-- What is left out of a sorted list leaves the others in their places. -/
theorem filter_insertSorted {α : Type} {le : α → α → Bool}
    (htrans : ∀ x y z, le x y = true → le y z = true → le x z = true) (keep : α → Bool) (x : α)
    {ys : List α} (h : ys.Pairwise fun y z => le y z = true) :
    (insertSorted le x ys).filter keep =
      if keep x then insertSorted le x (ys.filter keep) else ys.filter keep := by
  induction ys with
  | nil => cases hx : keep x <;> simp [insertSorted, hx]
  | cons y ys ih =>
    obtain ⟨hy, hys⟩ := List.pairwise_cons.1 h
    rw [insertSorted]
    split
    · rename_i hxy
      have hfirst : ∀ z ∈ (y :: ys).filter keep, le x z = true := by
        intro z hz
        rcases List.mem_cons.1 (List.mem_filter.1 hz).1 with rfl | hz
        · exact hxy
        · exact htrans x y z hxy (hy z hz)
      rw [insertSorted_of_le hfirst, List.filter_cons]
    · rename_i hxy
      rw [List.filter_cons, ih hys, List.filter_cons]
      cases hx : keep x <;> cases hkeep : keep y <;> simp [insertSorted, hxy]

/-- Leaving out what is not kept, before or after sorting by names, is the same. -/
theorem filter_sortByName {α : Type} (key : α → String) (keep : α → Bool) (xs : List α) :
    (sortByName key xs).filter keep = sortByName key (xs.filter keep) := by
  induction xs with
  | nil => rfl
  | cons x xs ih =>
    have hinsert := filter_insertSorted (fun x y z => by simpa using String.le_trans) keep x
      (pairwise_sortByName key xs)
    rw [ih] at hinsert
    rw [List.filter_cons]
    refine Eq.trans hinsert ?_
    split <;> rfl

/-! ## Collecting -/

namespace Selection

variable {sel : Selection} {P : String → Prop} {above names : List String} {node : Node}

/-- The files that an entry of a folder gives. -/
def collectEntry (sel : Selection) (above : List String) (entry : String × Node) :
    List (List String) :=
  if sel.prunes entry.1 || sel.ignored (pathText (above ++ [entry.1])) then []
  else sel.collectNode (above ++ [entry.1]) entry.2

theorem collectEntries_eq_map (entries : List (String × Node)) :
    sel.collectEntries above entries =
      entries.map fun entry => (entry.1, sel.collectEntry above entry) := by
  induction entries with
  | nil => rfl
  | cons entry entries ih => rw [collectEntries, ih]; rfl

/-- The files of a folder, entry by entry. -/
theorem collectNode_folder (entries : List (String × Node)) :
    sel.collectNode above (.folder entries) = if sel.closed above then [] else
      (sortByName Prod.fst entries).flatMap (sel.collectEntry above) := by
  have hkey (entry : String × Node) :
      Prod.fst (entry.1, sel.collectEntry above entry) = entry.1 := rfl
  rw [collectNode, collectEntries_eq_map, sortByName_map hkey, List.flatMap_map]

theorem mem_collectNode_folder {entries : List (String × Node)} :
    names ∈ sel.collectNode above (.folder entries) ↔
      sel.closed above = false ∧ ∃ entry ∈ entries, names ∈ sel.collectEntry above entry := by
  rw [collectNode_folder]
  cases sel.closed above <;> simp [mem_sortByName]

theorem mem_collectEntry {entry : String × Node} :
    names ∈ sel.collectEntry above entry ↔ sel.prunes entry.1 = false ∧
      sel.ignored (pathText (above ++ [entry.1])) = false ∧
        names ∈ sel.collectNode (above ++ [entry.1]) entry.2 := by
  unfold collectEntry
  cases sel.prunes entry.1 <;> cases sel.ignored (pathText (above ++ [entry.1])) <;> simp

/-- The entries that are asked about on account of an entry of a folder. -/
def askedEntry (sel : Selection) (above : List String) (entry : String × Node) :
    List (List String) :=
  if sel.prunes entry.1 then []
  else if sel.ignored (pathText (above ++ [entry.1])) then [above ++ [entry.1]]
  else (above ++ [entry.1]) :: sel.askedNode (above ++ [entry.1]) entry.2

theorem askedNode_folder (entries : List (String × Node)) :
    sel.askedNode above (.folder entries) =
      if sel.closed above then [] else entries.flatMap (sel.askedEntry above) := by
  have hentries : sel.askedEntries above entries = entries.flatMap (sel.askedEntry above) := by
    induction entries with
    | nil => rfl
    | cons entry entries ih => rw [askedEntries, ih]; rfl
  rw [askedNode, hentries]

theorem mem_askedNode_folder {entries : List (String × Node)} :
    names ∈ sel.askedNode above (.folder entries) ↔
      sel.closed above = false ∧ ∃ entry ∈ entries, names ∈ sel.askedEntry above entry := by
  rw [askedNode_folder]
  cases sel.closed above <;> simp

theorem mem_askedEntry {entry : String × Node} :
    names ∈ sel.askedEntry above entry ↔ sel.prunes entry.1 = false ∧
      (names = above ++ [entry.1] ∨ sel.ignored (pathText (above ++ [entry.1])) = false ∧
        names ∈ sel.askedNode (above ++ [entry.1]) entry.2) := by
  unfold askedEntry
  cases sel.prunes entry.1 <;> cases sel.ignored (pathText (above ++ [entry.1])) <;> simp

/-! ## What a walk comes to -/

/-- A walk goes on from a folder along the names below it: every folder on the way can be listed,
and nothing on the way is left out, neither by its name nor by its path. -/
structure Reaches (sel : Selection) (above below : List String) : Prop where
  listed : ∀ mid, mid <+: below → mid ≠ below → sel.closed (above ++ mid) = false
  kept : ∀ name ∈ below, sel.prunes name = false
  unignored : ∀ mid, mid <+: below → mid ≠ [] → sel.ignored (pathText (above ++ mid)) = false

theorem reaches_nil : sel.Reaches above [] where
  listed mid hmid hne := absurd (List.prefix_nil.1 hmid) hne
  kept := by simp
  unignored mid hmid hne := absurd (List.prefix_nil.1 hmid) hne

theorem reaches_cons {name : String} {below : List String} :
    sel.Reaches above (name :: below) ↔
      sel.closed above = false ∧ sel.prunes name = false ∧
        sel.ignored (pathText (above ++ [name])) = false ∧ sel.Reaches (above ++ [name]) below := by
  have hassoc (mid : List String) : above ++ name :: mid = above ++ [name] ++ mid := by simp
  constructor
  · rintro ⟨listed, kept, unignored⟩
    obtain ⟨hname, hbelow⟩ := List.forall_mem_cons.1 kept
    refine ⟨by simpa using listed [] List.nil_prefix (by simp), hname,
      unignored [name] (by simp) (by simp), fun mid hmid hne => ?_, hbelow, fun mid hmid _ => ?_⟩
    · rw [← hassoc]
      exact listed (name :: mid) (List.cons_prefix_cons.2 ⟨rfl, hmid⟩) (by simpa using hne)
    · rw [← hassoc]
      exact unignored (name :: mid) (List.cons_prefix_cons.2 ⟨rfl, hmid⟩) (by simp)
  · rintro ⟨hclosed, hname, hignored, listed, kept, unignored⟩
    refine ⟨fun mid hmid hne => ?_, List.forall_mem_cons.2 ⟨hname, kept⟩, fun mid hmid hne => ?_⟩
    · rcases List.prefix_cons_iff.1 hmid with rfl | ⟨mid, rfl, hrest⟩
      · simpa using hclosed
      · rw [hassoc]
        exact listed mid hrest (by simpa using hne)
    · rcases List.prefix_cons_iff.1 hmid with rfl | ⟨mid, rfl, hrest⟩
      · exact absurd rfl hne
      · rw [hassoc]
        by_cases hnil : mid = []
        · simpa [hnil] using hignored
        · exact unignored mid hrest hnil

/-- **The collected files** are those that a walk comes to and takes. -/
theorem mem_collectNode (hnode : node.Named P) :
    names ∈ sel.collectNode above node ↔ ∃ below bytes, names = above ++ below ∧
      node.find? below = some (.file bytes) ∧ sel.Reaches above below ∧ sel.takes names = true := by
  induction hnode generalizing above with
  | file bytes =>
    rw [collectNode]
    constructor
    · intro h
      split at h
      · rename_i htakes
        obtain rfl := List.mem_singleton.1 h
        exact ⟨[], bytes, by simp, rfl, reaches_nil, htakes⟩
      · cases h
    · rintro ⟨below, bytes, rfl, hfound, -, htakes⟩
      cases below with
      | nil => simpa using htakes
      | cons => cases hfound
  | link target =>
    rw [collectNode]
    refine ⟨fun h => absurd h List.not_mem_nil, ?_⟩
    rintro ⟨below, bytes, -, hfound, -⟩
    cases below <;> cases hfound
  -- By the first name of `below`: the entry of that name is entered, and it is the only one, since
  -- the names are distinct.
  | @folder entries distinct _ _ ih =>
    rw [mem_collectNode_folder]
    constructor
    · rintro ⟨hclosed, ⟨name, child⟩, hentry, h⟩
      obtain ⟨hprunes, hignored, h⟩ := mem_collectEntry.1 h
      obtain ⟨below, bytes, rfl, hfound, hreaches, htakes⟩ := (ih _ hentry).1 h
      exact ⟨name :: below, bytes, by simp,
        (Node.find?_folder_eq_some distinct).2 ⟨child, hentry, hfound⟩,
        reaches_cons.2 ⟨hclosed, hprunes, hignored, hreaches⟩, htakes⟩
    · rintro ⟨below, bytes, rfl, hfound, hreaches, htakes⟩
      cases below with
      | nil => cases hfound
      | cons name below =>
        obtain ⟨hclosed, hprunes, hignored, hreaches⟩ := reaches_cons.1 hreaches
        obtain ⟨child, hentry, hfound⟩ := (Node.find?_folder_eq_some distinct).1 hfound
        exact ⟨hclosed, _, hentry, mem_collectEntry.2 ⟨hprunes, hignored,
          (ih _ hentry).2 ⟨below, bytes, by simp, hfound, hreaches, htakes⟩⟩⟩

/-- **The entries that are asked about** are those of folders that a walk comes to and lists, but
for names that are always left out. -/
theorem mem_askedNode (hnode : node.Named P) :
    names ∈ sel.askedNode above node ↔ ∃ below name child, names = above ++ below ++ [name] ∧
      node.find? (below ++ [name]) = some child ∧ sel.Reaches above below ∧
        sel.closed (above ++ below) = false ∧ sel.prunes name = false := by
  induction hnode generalizing above with
  | file bytes =>
    refine ⟨fun h => by simp [askedNode] at h, ?_⟩
    rintro ⟨below, name, child, -, hfound, -⟩
    cases below <;> cases hfound
  | link target =>
    refine ⟨fun h => by simp [askedNode] at h, ?_⟩
    rintro ⟨below, name, child, -, hfound, -⟩
    cases below <;> cases hfound
  -- An entry is asked about whether or not it is ignored; what is below it only if it is not.
  | @folder entries distinct _ _ ih =>
    rw [mem_askedNode_folder]
    constructor
    · rintro ⟨hclosed, ⟨name, child⟩, hentry, h⟩
      obtain ⟨hprunes, rfl | ⟨hignored, h⟩⟩ := mem_askedEntry.1 h
      · exact ⟨[], name, child, by simp,
          (Node.find?_folder_eq_some distinct).2 ⟨child, hentry, rfl⟩, reaches_nil,
          by simpa using hclosed, hprunes⟩
      · obtain ⟨below, last, found, rfl, hfound, hreaches, hlisted, hlast⟩ := (ih _ hentry).1 h
        exact ⟨name :: below, last, found, by simp,
          (Node.find?_folder_eq_some distinct).2 ⟨child, hentry, hfound⟩,
          reaches_cons.2 ⟨hclosed, hprunes, hignored, hreaches⟩, by simpa using hlisted, hlast⟩
    · rintro ⟨below, last, found, rfl, hfound, hreaches, hlisted, hlast⟩
      cases below with
      | nil =>
        obtain ⟨child, hentry, -⟩ := (Node.find?_folder_eq_some distinct).1 hfound
        exact ⟨by simpa using hlisted, _, hentry, mem_askedEntry.2 ⟨hlast, .inl (by simp)⟩⟩
      | cons name below =>
        obtain ⟨hclosed, hprunes, hignored, hreaches⟩ := reaches_cons.1 hreaches
        obtain ⟨child, hentry, hfound⟩ := (Node.find?_folder_eq_some distinct).1 hfound
        exact ⟨hclosed, _, hentry, mem_askedEntry.2 ⟨hprunes, .inr ⟨hignored, (ih _ hentry).2
          ⟨below, last, found, by simp, hfound, hreaches, by simpa using hlisted, hlast⟩⟩⟩⟩

/-- **Only files are collected**, under their own names. -/
theorem exists_file_of_mem_collectNode (hnode : node.Named P)
    (h : names ∈ sel.collectNode above node) :
    ∃ below bytes, names = above ++ below ∧ node.find? below = some (.file bytes) ∧
      ∀ name ∈ below, P name := by
  obtain ⟨below, bytes, hnames, hfound, -⟩ := (mem_collectNode hnode).1 h
  exact ⟨below, bytes, hnames, hfound, hnode.forall_of_find? hfound⟩

theorem exists_file_of_mem_collectBelow (hnode : node.Named P)
    (h : names ∈ sel.collectBelow node) :
    ∃ bytes, node.find? names = some (.file bytes) ∧ names ≠ [] ∧ ∀ name ∈ names, P name := by
  cases node with
  | file bytes => cases h
  | link target => cases h
  | folder entries =>
    obtain ⟨below, bytes, rfl, hfound, hP⟩ := exists_file_of_mem_collectNode hnode h
    refine ⟨bytes, hfound, ?_, hP⟩
    rintro rfl
    cases hfound

/-- The selection that leaves nothing out on account of ignore rules. -/
def everything (sel : Selection) : Selection := { sel with ignored := fun _ => false }

/-- Leaving paths out asks about no more entries. -/
theorem askedNode_everything (hnode : node.Named P) (h : names ∈ sel.askedNode above node) :
    names ∈ sel.everything.askedNode above node := by
  obtain ⟨below, name, child, rfl, hfound, hreaches, hlisted, hname⟩ := (mem_askedNode hnode).1 h
  exact (mem_askedNode hnode).2 ⟨below, name, child, rfl, hfound,
    ⟨hreaches.listed, hreaches.kept, fun _ _ _ => rfl⟩, hlisted, hname⟩

/-- The file of the names is not ignored. -/
def keeps (sel : Selection) (names : List String) : Bool := !sel.ignored (pathText names)

/-- What lies below an ignored path is ignored too, if `P` holds of all names. -/
def IgnoresBelow (ignored : String → Bool) (P : String → Prop) : Prop :=
  ∀ above below : List String, above ≠ [] → (∀ name ∈ above ++ below, P name) →
    ignored (pathText above) = true → ignored (pathText (above ++ below)) = true

/-- If leaving out on the way is leaving out afterwards for each entry, it is for the folder. -/
theorem collectFolder_eq_filter {entries : List (String × Node)}
    (h : ∀ entry ∈ entries,
      sel.collectEntry above entry = (sel.everything.collectEntry above entry).filter sel.keeps) :
    sel.collectNode above (.folder entries) =
      (sel.everything.collectNode above (.folder entries)).filter sel.keeps := by
  have hclosed : sel.everything.closed above = sel.closed above := rfl
  rw [collectNode_folder, collectNode_folder, hclosed]
  split
  · rfl
  rw [List.filter_flatMap, List.flatMap_def, List.flatMap_def]
  exact congrArg _ (List.map_congr_left fun entry hentry => h entry (mem_sortByName.1 hentry))

/-- An entry that is ignored has only files below it that are ignored. -/
theorem collectEntry_eq_filter (hbelow : IgnoresBelow sel.ignored P)
    (habove : ∀ name ∈ above, P name) {name : String} (hname : P name) (hnode : node.Named P)
    (ih : sel.keeps (above ++ [name]) = true → sel.collectNode (above ++ [name]) node =
      (sel.everything.collectNode (above ++ [name]) node).filter sel.keeps) :
    sel.collectEntry above (name, node) =
      (sel.everything.collectEntry above (name, node)).filter sel.keeps := by
  have hprunes : sel.everything.prunes name = sel.prunes name := rfl
  have hnone : sel.everything.ignored (pathText (above ++ [name])) = false := rfl
  simp only [collectEntry, hprunes, hnone, Bool.or_false]
  cases sel.prunes name with
  | true => simp
  | false =>
    cases hkeeps : sel.keeps (above ++ [name]) with
    | true =>
      have hignored : sel.ignored (pathText (above ++ [name])) = false := by
        simpa [keeps] using hkeeps
      simpa [hignored] using ih hkeeps
    | false =>
      have hignored : sel.ignored (pathText (above ++ [name])) = true := by
        simpa [keeps] using hkeeps
      simp only [hignored, Bool.or_true, if_true, Bool.false_eq_true, if_false]
      refine (List.filter_eq_nil_iff.2 fun names hnames => ?_).symm
      obtain ⟨below, _, rfl, _, hP⟩ := exists_file_of_mem_collectNode hnode hnames
      have hnames : ∀ other ∈ above ++ [name] ++ below, P other := by
        simpa [or_imp, forall_and] using ⟨habove, hname, hP⟩
      rw [keeps, hbelow _ below (by simp) hnames hignored]
      simp

theorem collectNode_eq_filter (hbelow : IgnoresBelow sel.ignored P) (hnode : node.Named P)
    (habove : ∀ name ∈ above, P name) (hkeeps : sel.keeps above = true) :
    sel.collectNode above node = (sel.everything.collectNode above node).filter sel.keeps := by
  induction hnode generalizing above with
  | file bytes =>
    have htakes : sel.everything.takes above = sel.takes above := rfl
    rw [collectNode, collectNode, htakes]
    split
    · simp [hkeeps]
    · rfl
  | link target => simp [collectNode]
  | folder _ hnames hnodes ih =>
    refine collectFolder_eq_filter fun entry hentry => ?_
    exact collectEntry_eq_filter hbelow habove (hnames entry hentry) (hnodes entry hentry)
      (ih entry hentry (by simpa [or_imp, forall_and] using ⟨habove, hnames entry hentry⟩))

/-- **Leaving out on the way is leaving out afterwards.** -/
theorem collectBelow_eq_filter (hbelow : IgnoresBelow sel.ignored P) (hnode : node.Named P) :
    sel.collectBelow node = (sel.everything.collectBelow node).filter sel.keeps := by
  cases hnode with
  | file bytes => rfl
  | link target => rfl
  | folder _ hnames hnodes =>
    refine collectFolder_eq_filter fun entry hentry => ?_
    exact collectEntry_eq_filter hbelow (by simp) (hnames entry hentry) (hnodes entry hentry)
      (collectNode_eq_filter hbelow (hnodes entry hentry) (by simpa using hnames entry hentry))

/-! ## Names as paths -/

theorem pathText_append {above below : List String} (ha : above ≠ []) (hb : below ≠ []) :
    pathText (above ++ below) = pathText above ++ "/" ++ pathText below := by
  induction above with
  | nil => exact absurd rfl ha
  | cons name above ih =>
    cases above with
    | nil =>
      cases below with
      | nil => exact absurd rfl hb
      | cons => rfl
    | cons next above =>
      have hjoin := ih (List.cons_ne_nil next above)
      simp only [pathText, List.cons_append, Text.join] at hjoin ⊢
      rw [hjoin]
      simp [String.append_assoc]

/-- A character of a path is a slash or one of its names. -/
theorem mem_pathText {c : Char} (h : c ∈ (pathText names).toList) :
    c = '/' ∨ ∃ name ∈ names, c ∈ name.toList := by
  induction names with
  | nil => cases h
  | cons name names ih =>
    cases names with
    | nil => exact .inr ⟨name, by simp, h⟩
    | cons next names =>
      have hjoin : pathText (name :: next :: names) = name ++ "/" ++ pathText (next :: names) := rfl
      rw [hjoin, String.toList_append, String.toList_append, List.mem_append, List.mem_append] at h
      rcases h with (h | h) | h
      · exact .inr ⟨name, by simp, h⟩
      · exact .inl (List.mem_singleton.1 h)
      · exact (ih h).imp_right fun ⟨other, hother, hc⟩ => ⟨other, List.mem_cons_of_mem _ hother, hc⟩

theorem pathText_ne_empty (hne : names ≠ []) (hnames : ∀ name ∈ names, name ≠ "") :
    pathText names ≠ "" := by
  cases names with
  | nil => exact absurd rfl hne
  | cons name names =>
    have hname := hnames name (by simp)
    cases names with
    | nil => exact hname
    | cons next names =>
      intro h
      simp [pathText, Text.join, String.append_eq_empty_iff] at h

theorem utf8ByteSize_pathText_le (above below : List String) :
    (pathText below).utf8ByteSize ≤ (pathText (above ++ below)).utf8ByteSize := by
  by_cases ha : above = []
  · simp [ha]
  by_cases hb : below = []
  · rw [hb]
    exact Nat.zero_le _
  rw [pathText_append ha hb, String.utf8ByteSize_append]
  exact Nat.le_add_left _ _

theorem utf8ByteSize_pathText_front (above below : List String) :
    (pathText above).utf8ByteSize ≤ (pathText (above ++ below)).utf8ByteSize := by
  by_cases ha : above = []
  · rw [ha]
    exact Nat.zero_le _
  by_cases hb : below = []
  · simp [hb]
  rw [pathText_append ha hb, String.utf8ByteSize_append, String.utf8ByteSize_append]
  omega

/-- With a slash for each name, a row of equal names is so many times as long as one. -/
theorem utf8ByteSize_pathText_replicate (name : String) {n : Nat} (hn : 0 < n) :
    (pathText (List.replicate n name)).utf8ByteSize + 1 = n * (name.utf8ByteSize + 1) := by
  induction n with
  | zero => cases hn
  | succ n ih =>
    cases n with
    | zero => simp [pathText, Text.join]
    | succ n =>
      have hjoin : pathText (List.replicate (n + 2) name) =
          name ++ "/" ++ pathText (List.replicate (n + 1) name) := rfl
      have hslash : "/".utf8ByteSize = 1 := rfl
      have hrest := ih (Nat.succ_pos n)
      rw [hjoin, String.utf8ByteSize_append, String.utf8ByteSize_append, hslash,
        Nat.succ_mul _ (_ + 1)]
      omega

end Selection

/-! ## Folders in one another -/

/-- A node in so many folders of one name in one another. -/
def Node.nest (name : String) (node : Node) : Nat → Node
  | 0 => node
  | n + 1 => .folder [(name, nest name node n)]

namespace Node

variable {P : String → Prop} {name : String} {node : Node}

theorem named_nest (hname : P name) (hnode : node.Named P) (n : Nat) :
    (nest name node n).Named P := by
  induction n with
  | zero => exact hnode
  | succ n ih =>
    exact .folder (by simp) (by simpa using hname) (List.forall_mem_singleton.2 ih)

theorem find?_nest (n : Nat) : (nest name node n).find? (List.replicate n name) = some node := by
  induction n with
  | zero => rfl
  | succ n ih =>
    rw [nest, List.replicate_succ, find?_folder_cons, List.lookup_cons_self]
    exact ih

end Node

/-- A name of an entry that is as long as the system allows, and is not left out. -/
structure IsLongName (name : String) : Prop where
  entry : IsEntryName name
  noNewline : '\n' ∉ name.toList
  size_eq : name.utf8ByteSize = Node.longestName
  kept : name ∉ skippedFolders

theorem exists_isLongName : ∃ name, IsLongName name := by
  have hletters : ∀ c ∈ (String.ofList (List.replicate 255 'n')).toList, c = 'n' := by
    intro c hc
    rw [String.toList_ofList] at hc
    exact List.eq_of_mem_replicate hc
  have hlength : (String.ofList (List.replicate 255 'n')).toList.length = 255 := by
    rw [String.toList_ofList, List.length_replicate]
  have hsize : (String.ofList (List.replicate 255 'n')).utf8ByteSize = 255 := by decide +kernel
  generalize String.ofList (List.replicate 255 'n') = name at hletters hlength hsize
  have hmem {c : Char} (hc : c ≠ 'n') : c ∉ name.toList := fun h => hc (hletters c h)
  have hne {s : String} (h : s.toList.length ≠ 255) : name ≠ s := by
    rintro rfl
    exact h hlength
  have hshort : ∀ s ∈ skippedFolders, s.toList.length ≠ 255 := by decide
  exact ⟨name, ⟨⟨⟨hne (by decide), hne (by decide), hne (by decide)⟩, hmem (by decide),
    hmem (by decide)⟩, hmem (by decide), hsize, fun h => hne (hshort name h) rfl⟩⟩

/-- Seventeen names of that length make a path that is too long. -/
theorem IsLongName.isTooLong {name : String} (h : IsLongName name) (p : Path)
    (above : List String) {n : Nat} (hn : 17 ≤ n) :
    Disk.isTooLong (p.extend (above ++ List.replicate n name)) = true := by
  have hrow := Selection.utf8ByteSize_pathText_replicate name (n := n) (by omega)
  have hall := Selection.utf8ByteSize_pathText_le (p.names ++ above) (List.replicate n name)
  have htext : (p.extend (above ++ List.replicate n name)).plainText = p.anchor.text ++
      Selection.pathText (p.names ++ above ++ List.replicate n name) := by
    rw [List.append_assoc]
    rfl
  have hplain : 4096 ≤ (p.extend (above ++ List.replicate n name)).plainText.utf8ByteSize := by
    rw [htext, String.utf8ByteSize_append]
    rw [h.size_eq, Node.longestName] at hrow
    omega
  have hne : ((p.extend (above ++ List.replicate n name)).plainText == "") = false := by
    rw [beq_eq_false_iff_ne]
    intro hempty
    rw [hempty] at hplain
    exact absurd hplain (by decide)
  rw [Disk.isTooLong, decide_eq_true_eq, Path.text, hne, if_neg Bool.false_ne_true]
  exact hplain

/-! ## Where collected files are -/

/-- Names of a tree lead down it, with no link on the way. -/
theorem Node.leads_of_find? {top node found : Node} {here below : List String}
    (hnode : top.find? here.reverse = some node) (hfound : node.find? below = some found)
    (hplain : ∀ name ∈ below, IsPlain name) (hlink : ∀ target, found ≠ .link target) :
    Leads top here below 0 (below.reverse ++ here) := by
  induction below generalizing here node with
  | nil => exact .done
  | cons name rest ih =>
    simp only [find?] at hfound
    split at hfound
    · rename_i child hchild
      have hdown : top.find? (name :: here).reverse = some child := by
        rw [List.reverse_cons, find?_append, hnode]
        simp only [Option.bind_some, find?, hchild]
      have hnoLink : ∀ target, child ≠ .link target := by
        rintro target rfl
        cases rest with
        | nil => exact hlink target (Option.some.inj hfound).symm
        | cons => cases hfound
      have hrest := ih hdown hfound fun name h => hplain name (List.mem_cons_of_mem _ h)
      rw [List.reverse_cons, List.append_assoc]
      exact .step (.down (hplain name (by simp)) hdown hnoLink) hrest
    · cases hfound

namespace Disk

variable {d : Disk} {root : Path} {names below : List String} {node : Node}

theorem hasNul_extend (hroot : hasNul root = false) (hbelow : ∀ name ∈ below, IsEntryName name) :
    hasNul (root.extend below) = false := by
  rw [hasNul, Path.extend, List.any_append, ← hasNul, hroot, Bool.false_or, List.any_eq_false]
  intro name hname
  simpa using (hbelow name hname).2.2

/-- The node at a path without links, below which files are collected. -/
def collectedNode? (d : Disk) (root : Path) : Option Node :=
  match d.locate root .target with
  | .ok (.found _ node) => some node
  | _ => none

theorem collectedNode?_eq_some (h : d.collectedNode? root = some node) :
    ∃ names, d.locate root .target = .ok (.found names node) := by
  unfold collectedNode? at h
  split at h
  · obtain rfl := Option.some.inj h
    exact ⟨_, ‹_›⟩
  · cases h

/-- What holds of all names on a disk holds of those below a folder. -/
theorem named_of_collectedNode? {P : String → Prop} (hdisk : d.top.Named P)
    (h : d.collectedNode? root = some node) : node.Named P := by
  obtain ⟨names, hlocate⟩ := collectedNode?_eq_some h
  exact hdisk.find? (locate_leads hlocate).2.1

/-- The selection with the folders below a path that cannot be listed. -/
def listing (d : Disk) (sel : Selection) (root : Path) : Selection :=
  { sel with closed := fun names => d.isClosed (root.extend names) }

/-- The walk below a folder asks about an entry whose path is too long. -/
def asksTooLong (d : Disk) (sel : Selection) (root : Path) (node : Node) : Bool :=
  ((d.listing sel root).askedNode [] node).any fun names => isTooLong (root.extend names)

/-- What is collected below a path that resolves. The folders that cannot be listed are those of
the disk. -/
theorem collect_eq (sel : Selection) {place : Path} (h : d.resolve root = .ok place) :
    d.collect sel root = (d.collectedNode? place).elim (.ok (place, [])) fun node =>
      if d.asksTooLong sel place node then .error .nameTooLong
      else .ok (place, (d.listing sel place).collectBelow node) := by
  simp only [collect, h, bind, Except.bind, collectedNode?]
  rcases d.locate place .target with _ | _ | _ <;> rfl

theorem asksTooLong_eq_true {P : String → Prop} {sel : Selection} (hnode : node.Named P) :
    d.asksTooLong sel root node = true ↔ ∃ below name child,
      node.find? (below ++ [name]) = some child ∧ (d.listing sel root).Reaches [] below ∧
        d.isClosed (root.extend below) = false ∧ sel.prunes name = false ∧
          isTooLong (root.extend (below ++ [name])) = true := by
  rw [asksTooLong, List.any_eq_true]
  constructor
  · rintro ⟨names, hasked, hlong⟩
    obtain ⟨below, name, child, rfl, hfound, hreaches, hlisted, hname⟩ :=
      (Selection.mem_askedNode hnode).1 hasked
    exact ⟨below, name, child, hfound, hreaches, hlisted, hname, hlong⟩
  · rintro ⟨below, name, child, hfound, hreaches, hlisted, hname, hlong⟩
    exact ⟨below ++ [name], (Selection.mem_askedNode hnode).2
      ⟨below, name, child, rfl, hfound, hreaches, hlisted, hname⟩, hlong⟩

/-- A walk that leaves nothing out comes to the end of folders in one another. -/
theorem asksTooLong_nest {P : String → Prop} {sel : Selection} {inner : Node} {name : String}
    {n : Nat} (hnode : node.Named P) (hname : IsLongName name) (hopen : d.closed = [])
    (hall : ∀ path, sel.ignored path = false) (hskipped : sel.skipped = [])
    (hbelow : ∀ name ∈ below, name ∉ skippedFolders)
    (hfound : node.find? below = some (.nest name inner (n + 1))) (hn : 17 ≤ n + 1) :
    d.asksTooLong sel root node = true := by
  have hclosed (p : Path) : d.isClosed p = false := by simp [isClosed, hopen]
  have hkept {other : String} (h : other ∉ skippedFolders) : sel.prunes other = false := by
    simpa [Selection.prunes, hskipped] using h
  have hrow : below ++ List.replicate n name ++ [name] = below ++ List.replicate (n + 1) name := by
    rw [List.append_assoc, List.replicate_succ']
  refine (asksTooLong_eq_true hnode).2 ⟨below ++ List.replicate n name, name, inner, ?_,
    ⟨fun _ _ _ => hclosed _, fun other hother => hkept ?_, fun _ _ _ => hall _⟩, hclosed _,
    hkept hname.kept, ?_⟩
  · rw [hrow, Node.find?_append, hfound]
    exact Node.find?_nest (n + 1)
  · rcases List.mem_append.1 hother with hother | hother
    · exact hbelow other hother
    · rw [List.eq_of_mem_replicate hother]
      exact hname.kept
  · rw [hrow]
    exact hname.isTooLong root below hn

/-- Leaving paths out does not make a walk meet more paths that are too long. -/
theorem asksTooLong_of_everything {P : String → Prop} (sel : Selection) (hnode : node.Named P)
    (h : d.asksTooLong sel.everything root node = false) : d.asksTooLong sel root node = false := by
  rw [asksTooLong, List.any_eq_false] at h ⊢
  exact fun names hasked => h names (Selection.askedNode_everything hnode hasked)

/-- **A collected file has no link on the way.** -/
theorem resolve_collected {bytes : List UInt8} (hanchor : root.anchor ≠ .here)
    (hroot : d.locate root .target = .ok (.found names node))
    (hfound : node.find? below = some (.file bytes))
    (hbelow : ∀ name ∈ below, IsEntryName name) :
    d.resolve (root.extend below) = .ok ⟨.root, names ++ below⟩ := by
  obtain ⟨hnul, hnode, n, hn, hleads⟩ := locate_leads hroot
  have hdown : Node.Leads d.top names.reverse below 0 (below.reverse ++ names.reverse) :=
    Node.leads_of_find? (by simpa using hnode) hfound (fun name h => (hbelow name h).1) (by simp)
  have horigin : d.origin (root.extend below) = d.origin root := rfl
  refine resolve_of_leads (straight_origin hanchor) (hasNul_extend hnul hbelow) hn ?_
  rw [horigin]
  simpa [Path.extend] using hleads.append hdown

/-- A file that cannot be read is one that the system does not give. -/
theorem readSource_error {p : Path} {fault : Fault} (hnul : hasNul p = false)
    (h : d.readSource p = .error fault) : fault.ofSystem = true := by
  have hread : d.readBytes p = .error fault := by
    unfold readSource at h
    cases hbytes : d.readBytes p with
    | ok bytes => rw [hbytes] at h; cases h
    | error other => rw [hbytes] at h; cases h; rfl
  unfold readBytes at hread
  split at hread
  · cases hread; rfl
  split at hread
  · cases hread
  · cases hread; rfl
  · cases hread; rfl
  · cases hread; exact locate_error ‹_› hnul

end Disk

end WorkspaceAudit
