import WorkspaceAudit.Proofs.Files.Altering
import WorkspaceAudit.Proofs.Files.Collecting
import WorkspaceAudit.Proofs.Files.Settling

/-!
# Sound disks

- `Disk.Sound`: a disk as systems have them; `Disk.Alters.sound`: it stays so when files are written
  and folders are made.
- `Disk.EndsIn`: a path ends in a folder; `Disk.EndsIn.resolve_eq`: on a sound disk it resolves to
  it; `Disk.EndsIn.last_of_leads`: what a name in that folder leads to.
-/

namespace WorkspaceAudit

namespace Node

variable {top : Node} {here todo there names : List String}

/-- No link has a NUL in its target. -/
def NulFreeLinks (top : Node) : Prop :=
  ∀ names target, top.find? names = some (.link target) → '\x00' ∉ target.toList

/-- The names can be part of a path: they have neither slashes nor NULs. -/
def CanBeNames (names : List String) : Prop :=
  ∀ name ∈ names, '/' ∉ name.toList ∧ '\x00' ∉ name.toList

theorem canBeNames_route {target : String} (h : '\x00' ∉ target.toList) :
    CanBeNames (route target) := by
  intro name hname
  rcases List.mem_append.1 hname with hname | hname
  · have hpart := (List.mem_filter.1 hname).1
    refine ⟨slashFree_slashParts target name hpart, fun hnul => h ?_⟩
    obtain ⟨piece, hpiece, rfl⟩ := List.mem_map.1 hpart
    rw [String.toList_ofList] at hnul
    exact Text.mem_of_mem_splitOn hpiece hnul
  · split at hname
    · obtain rfl := List.mem_singleton.1 hname
      decide
    · cases hname

/-- **Names lead to places of entries**, from a place of entries. -/
theorem Leads.isEntryName {n : Nat} (h : Leads top here todo n there) (htop : top.NulFreeLinks)
    (hhere : ∀ name ∈ here, IsEntryName name) (htodo : CanBeNames todo) :
    ∀ name ∈ there, IsEntryName name := by
  induction h with
  | done => exact hhere
  | step step _ ih =>
    obtain ⟨hname, hrest⟩ := List.forall_mem_cons.1 htodo
    refine ih ?_ hrest
    cases step with
    | stay => exact hhere
    | up => exact fun name hmem => hhere name (List.mem_of_mem_tail hmem)
    | down plain => exact List.forall_mem_cons.2 ⟨⟨plain, hname⟩, hhere⟩
  | follow link _ ih =>
    refine ih ?_ (List.forall_mem_append.2 ⟨?_, (List.forall_mem_cons.1 htodo).2⟩)
    · split
      · simp
      · exact hhere
    · exact canBeNames_route (htop _ _ link.2)

/-- A tree has names of a kind if all that is found in it has. -/
theorem named_of_find? {P : String → Prop} (hdistinct : top.Named fun _ => True)
    (h : ∀ names node, top.find? names = some node → ∀ name ∈ names, P name) : top.Named P := by
  induction hdistinct with
  | file bytes => exact .file bytes
  | link target => exact .link target
  | @folder entries distinct _ _ ih =>
    have hentry (entry : String × Node) (hmem : entry ∈ entries) (names : List String) :
        (Node.folder entries).find? (entry.1 :: names) = entry.2.find? names := by
      rw [find?_folder_cons, lookup_of_nodup distinct hmem]
      rfl
    refine .folder distinct (fun entry hmem => ?_) fun entry hmem => ih entry hmem ?_
    · exact h [entry.1] entry.2 (hentry entry hmem []) entry.1 List.mem_cons_self
    · intro names node hnode name hname
      refine h (entry.1 :: names) node ?_ name (List.mem_cons_of_mem _ hname)
      rw [hentry entry hmem, hnode]

end Node

namespace Disk

open Node

variable {d d' : Disk} {p : Path} {place x : List String} {written made : Path → Prop}

/-- A disk as systems have them: its entries have names that entries can have, its links have
targets that links can have, and the working folder is a folder without links on the way. -/
structure Sound (d : Disk) : Prop where
  named : d.top.Named IsEntryName
  links : d.top.NulFreeLinks
  straight : Straight d.top d.here.reverse
  working : ∃ entries, d.top.find? d.here = some (.folder entries)

namespace Sound

theorem distinct (h : d.Sound) : d.Distinct := h.named.mono fun _ _ => trivial

theorem straight_origin (h : d.Sound) (p : Path) : Straight d.top (d.origin p) := by
  unfold origin
  split
  · exact h.straight
  · exact .root

theorem isEntryName_here (h : d.Sound) : ∀ name ∈ d.here, IsEntryName name := by
  obtain ⟨entries, hfolder⟩ := h.working
  exact h.named.forall_of_find? hfolder

theorem isEntryName_origin (h : d.Sound) (p : Path) : ∀ name ∈ d.origin p, IsEntryName name := by
  unfold origin
  split
  · exact fun name hname => h.isEntryName_here name (List.mem_reverse.1 hname)
  · simp

end Sound

/-! ## Paths that end in a folder -/

/-- The path ends in the folder of these names. -/
structure EndsIn (d : Disk) (p : Path) (place : List String) : Prop where
  noNul : hasNul p = false
  leads : ∃ n ≤ settleLimit, Leads d.top (d.origin p) p.names n place.reverse
  folder : ∃ entries, d.top.find? place = some (.folder entries)

namespace EndsIn

theorem straight (h : d.EndsIn p place) (hd : d.Sound) : Straight d.top place.reverse := by
  obtain ⟨n, -, hleads⟩ := h.leads
  exact hleads.straight (hd.straight_origin p)

theorem resolve_eq (h : d.EndsIn p place) (hd : d.Sound) : d.resolve p = .ok ⟨.root, place⟩ := by
  obtain ⟨n, hn, hleads⟩ := h.leads
  exact resolve_of_leads (hd.straight_origin p) h.noNul hn hleads

theorem isEntryName (h : d.EndsIn p place) (hd : d.Sound) : ∀ name ∈ place, IsEntryName name := by
  obtain ⟨entries, hfolder⟩ := h.folder
  exact hd.named.forall_of_find? hfolder

/-- The name of the folder can be part of the name of an entry. -/
theorem canBeName (h : d.EndsIn p place) (hd : d.Sound) :
    '/' ∉ (Path.name ⟨.root, place⟩).toList ∧ '\x00' ∉ (Path.name ⟨.root, place⟩).toList := by
  rcases List.eq_nil_or_concat place with rfl | ⟨front, name, rfl⟩
  · exact ⟨by decide, by decide⟩
  · have hname := h.isEntryName hd name (by simp)
    rw [List.concat_eq_append, Path.name, List.getLastD_concat]
    exact hname.2

/-- The folder without links on the way ends in itself. -/
theorem self (h : d.EndsIn p place) (hd : d.Sound) : d.EndsIn ⟨.root, place⟩ place where
  noNul := by
    rw [hasNul, List.any_eq_false]
    intro name hname
    simpa using (h.isEntryName hd name hname).2.2
  leads := by
    have hleads := (h.straight hd).leads
    rw [List.reverse_reverse] at hleads
    exact ⟨0, Nat.zero_le _, hleads⟩
  folder := h.folder

theorem of_grows (h : d.EndsIn p place) (hhere : d'.here = d.here)
    (hgrows : Grows d.top d'.top) : d'.EndsIn p place where
  noNul := h.noNul
  leads := by
    obtain ⟨n, hn, hleads⟩ := h.leads
    have horigin : d'.origin p = d.origin p := by rw [origin, origin, hhere]
    rw [horigin]
    exact ⟨n, hn, hgrows.leads hleads⟩
  folder := by
    obtain ⟨entries, hfolder⟩ := h.folder
    exact hgrows.folder hfolder

/-- **A name in a folder leads to what has that name there**, unless it is a link. -/
theorem last_of_leads {name : String} {n : Nat} (h : d.EndsIn p place) (hname : IsPlain name)
    (hleads : Leads d.top (d.origin p) (p.names ++ [name]) n x.reverse) :
    x = place ++ [name] ∨ ∃ target, d.top.find? (place ++ [name]) = some (.link target) := by
  obtain ⟨most, -, hplace⟩ := h.leads
  obtain ⟨k, l, mid, -, hfront, hlast⟩ := Leads.split hleads
  obtain ⟨-, rfl⟩ := hfront.unique hplace
  generalize hthere : x.reverse = there at hlast
  cases hlast with
  | step step more =>
    cases more
    cases step with
    | stay dot => exact absurd dot hname.not_dot
    | up dots => exact absurd dots hname.2.2
    | down => exact .inl (by simpa using congrArg List.reverse hthere)
  | follow link => exact .inr ⟨_, by simpa using link.2⟩

theorem eq_of_leadsTo {name : String} {node : Node} (h : d.EndsIn p place) (hname : IsPlain name)
    (hlink : ∀ target, d.top.find? (place ++ [name]) ≠ some (.link target))
    (hleads : d.LeadsTo (p.extend [name]) x node) : x = place ++ [name] := by
  obtain ⟨-, -, n, -, hpath⟩ := locate_leads hleads
  exact (h.last_of_leads hname hpath).resolve_right fun ⟨target, htarget⟩ => hlink target htarget

/-- A name that leads somewhere is there. -/
theorem exists_of_leadsTo {name : String} {node : Node} (h : d.EndsIn p place)
    (hname : IsPlain name) (hleads : d.LeadsTo (p.extend [name]) x node) :
    ∃ found, d.top.find? (place ++ [name]) = some found := by
  obtain ⟨-, hnode, n, -, hpath⟩ := locate_leads hleads
  rcases h.last_of_leads hname hpath with rfl | ⟨target, htarget⟩
  · exact ⟨node, hnode⟩
  · exact ⟨_, htarget⟩

end EndsIn

theorem endsIn_of_locate {entries : List (String × Node)}
    (h : d.locate p .target = .ok (.found place (.folder entries))) : d.EndsIn p place := by
  obtain ⟨hnul, hfolder, hleads⟩ := locate_leads h
  exact ⟨hnul, hleads, entries, hfolder⟩

theorem exists_endsIn_of_isFolder? (h : d.isFolder? p = .ok true) : ∃ place, d.EndsIn p place := by
  obtain ⟨names, entries, hlocate⟩ := exists_locate_of_isFolder? h
  exact ⟨names, endsIn_of_locate hlocate⟩

/-! ## Sound disks stay sound -/

/-- What a path without slashes leads to has names that entries can have. -/
theorem Sound.isEntryName_of_leadsTo {node : Node} (hd : d.Sound)
    (h : d.Alters d' written made) (hp : SlashFree p.names) (hleads : d'.LeadsTo p x node) :
    ∀ name ∈ x, IsEntryName name := by
  have horigin : d'.origin p = d.origin p := by rw [origin, origin, h.here]
  obtain ⟨hnul, -, n, -, hpath⟩ := locate_leads hleads
  rw [horigin] at hpath
  have hnames : CanBeNames p.names := by
    intro name hname
    rw [hasNul, List.any_eq_false] at hnul
    exact ⟨hp name hname, by simpa using hnul name hname⟩
  have hlinks : d'.top.NulFreeLinks :=
    fun names target hlink => hd.links names target (h.links hlink)
  intro name hname
  exact hpath.isEntryName hlinks (hd.isEntryName_origin p) hnames name (List.mem_reverse.2 hname)

/-- **A sound disk stays sound** when files are written and folders are made, at paths as they are
read from texts. -/
theorem Alters.sound (h : d.Alters d' written made) (hd : d.Sound) (hdistinct : d'.Distinct)
    (hpaths : ∀ p, written p ∨ made p → SlashFree p.names) : d'.Sound where
  named := by
    refine named_of_find? hdistinct fun names node hnode => ?_
    cases node with
    | link target => exact hd.named.forall_of_find? (h.links hnode)
    | file bytes =>
      rcases h.files hnode with hold | ⟨p, hp, hleads⟩
      · exact hd.named.forall_of_find? hold
      · exact hd.isEntryName_of_leadsTo h (hpaths p (.inl hp)) hleads
    | folder entries =>
      rcases h.folders hnode with ⟨entries', hold⟩ | ⟨p, hp, hleads⟩
      · exact hd.named.forall_of_find? hold
      · exact hd.isEntryName_of_leadsTo h (hpaths p (.inr hp)) hleads
  links names target hlink := hd.links names target (h.links hlink)
  straight := by
    rw [h.here]
    exact h.grows.straight hd.straight
  working := by
    obtain ⟨entries, hfolder⟩ := hd.working
    rw [h.here]
    exact h.grows.folder hfolder

end Disk

end WorkspaceAudit
