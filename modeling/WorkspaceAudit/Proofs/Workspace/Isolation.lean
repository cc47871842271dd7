import Mathlib.Data.List.Infix
import WorkspaceAudit.Proofs.Files.Asking
import WorkspaceAudit.Proofs.Files.Writing
import WorkspaceAudit.Proofs.Workspace.Failing
import WorkspaceAudit.Proofs.Workspace.Projects

/-!
# Projects beside others

A project is taken out of a workspace together with its folder. If its manifest could be used, the
other projects are found as before; if not, no project was found before.

- `Node.find?_erase_self`, `Node.sameAt_erase`: a tree without one entry of a folder.
- `Disk.Avoids`: a path does not ask about a place or anything below it, so it does not matter what
  is there.
- `Project.Apart`: no entry of a workspace but one leads through the place of that one;
  `Project.apart_of_isStraight`: so it is if there are no links on the way.
- `Project.discover_without`: the projects of a workspace without one entry.
- `Project.Spoils`: the bytes of a manifest that cannot be used.
-/

namespace WorkspaceAudit

/-! ## Trees without an entry -/

namespace Node

def isLink : Node → Bool
  | .link _ => true
  | _ => false

variable {top : Node} {place x : List String} {name : String} {entries : List (String × Node)}

theorem lookup_filter_ne {other : String} (h : other ≠ name) :
    (entries.filter (·.1 != name)).lookup other = entries.lookup other := by
  induction entries with
  | nil => rfl
  | cons entry entries ih =>
    obtain ⟨first, node⟩ := entry
    by_cases hfirst : first = name
    · have hother : (other == first) = false := beq_false_of_ne (hfirst ▸ h)
      rw [List.filter_cons_of_neg (by simp [hfirst]), ih, List.lookup_cons, hother]
    · rw [List.filter_cons_of_pos (by simpa using hfirst), List.lookup_cons, List.lookup_cons, ih]

/-- What is erased further down is erased in the entry on the way. -/
theorem erase_cons {child : Node} {rest : List String} (hchild : entries.lookup name = some child)
    (hrest : rest ≠ []) : (folder entries).erase (name :: rest) =
      .folder (putEntry name (child.erase rest) entries) := by
  cases rest with
  | nil => exact absurd rfl hrest
  | cons second rest => simp only [erase, hchild]

/-- **The folder without the entry.** -/
theorem find?_erase_self (h : top.find? place = some (.folder entries)) :
    (top.erase (place ++ [name])).find? place =
      some (.folder (entries.filter (·.1 != name))) := by
  induction place generalizing top with
  | nil =>
    obtain rfl := Option.some.inj h
    rfl
  | cons first place ih =>
    rw [find?_cons] at h
    obtain ⟨child, hchild, hfound⟩ := Option.bind_eq_some_iff.1 h
    cases top with
    | folder others =>
      rw [List.cons_append, erase_cons hchild (by simp), find?_cons, child?, lookup_putEntry,
        if_pos rfl, Option.bind_some, ih hfound]
    | _ => cases hchild

/-- **Nothing else is changed.** -/
theorem sameAt_erase (h : top.find? place = some (.folder entries)) (hx : ¬place ++ [name] <+: x) :
    SameAt top (top.erase (place ++ [name])) x := by
  induction place generalizing top x with
  | nil =>
    obtain rfl := Option.some.inj h
    cases x with
    | nil => rfl
    | cons other x =>
      have hother : other ≠ name := by
        rintro rfl
        exact hx (by simp)
      have herase : (folder entries).erase ([] ++ [name]) =
        .folder (entries.filter (·.1 != name)) := rfl
      rw [SameAt, herase, find?_cons, find?_cons, child?, child?, lookup_filter_ne hother]
  | cons first place ih =>
    rw [find?_cons] at h
    obtain ⟨child, hchild, hfound⟩ := Option.bind_eq_some_iff.1 h
    cases top with
    | folder others =>
      rw [List.cons_append, erase_cons hchild (by simp)]
      cases x with
      | nil => rfl
      | cons other x =>
        rw [SameAt, find?_cons, find?_cons, child?, child?, lookup_putEntry]
        split
        · subst other
          rw [show others.lookup first = some child from hchild, Option.bind_some,
            Option.bind_some]
          refine ih hfound fun hbelow => hx ?_
          rw [List.cons_append]
          exact (List.prefix_cons_inj first).2 hbelow
        · rfl
    | _ => cases hchild

end Node

namespace Disk

open Node

variable {d : Disk} {p : Path} {place : List String} {name : String}
  {entries : List (String × Node)}

/-- The disk without what is at a place. -/
def without (d : Disk) (place : List String) : Disk := { d with top := d.top.erase place }

/-- The path neither starts at the place or below it nor asks about anything there. -/
def Avoids (d : Disk) (p : Path) (place : List String) : Prop :=
  ¬place <+: (d.origin p).reverse ∧ ∀ x, d.Asks p x → ¬place <+: x

/-- The names of the path are plain, and no link is on the way. -/
def isStraight (d : Disk) (p : Path) : Bool :=
  p.names.all (fun name => decide (name ≠ "" ∧ name ≠ "." ∧ name ≠ "..")) &&
    p.names.inits.all fun front => !(d.top.find? ((d.origin p).reverse ++ front)).any isLink

/-- A path without links asks about no place that it does not lead through. -/
theorem avoids_of_isStraight (h : d.isStraight p = true)
    (hplace : ¬place <+: (d.origin p).reverse ++ p.names) : d.Avoids p place := by
  simp only [isStraight, Bool.and_eq_true, List.all_eq_true, decide_eq_true_eq, List.mem_inits,
    Bool.not_eq_true'] at h
  obtain ⟨hplain, hlinks⟩ := h
  refine ⟨fun horigin => hplace (horigin.trans (List.prefix_append _ _)), fun x hx hbelow => ?_⟩
  have hlink : ∀ front, front <+: p.names → ∀ target,
      d.top.find? ((d.origin p).reverse ++ front) ≠ some (.link target) := by
    intro front hfront target hfound
    have hno := hlinks front hfront
    rw [hfound] at hno
    cases hno
  obtain ⟨front, hfront, rfl⟩ := asks_straight hplain hlink hx
  exact hplace (hbelow.trans ((List.prefix_append_right_inj _).2 hfront))

section Without

variable (hplace : d.top.find? place = some (.folder entries))
  (havoids : d.Avoids p (place ++ [name]))

include hplace havoids

/-- Whatever the path asks about is there without the entry. -/
theorem sameAt_without : SameAt d.top (d.without (place ++ [name])).top [] ∧
    SameAt d.top (d.without (place ++ [name])).top (d.origin p).reverse ∧
    ∀ x, d.Asks p x → SameAt d.top (d.without (place ++ [name])).top x :=
  ⟨sameAt_erase hplace (by simp), sameAt_erase hplace havoids.1,
    fun x hx => sameAt_erase hplace (havoids.2 x hx)⟩

theorem locate_without (aim : Aim) : (d.locate p aim).map Place.bare =
    ((d.without (place ++ [name])).locate p aim).map Place.bare := by
  obtain ⟨htop, horigin, hasks⟩ := sameAt_without hplace havoids
  have hhere : (d.without (place ++ [name])).here = d.here := rfl
  exact locate_of_asks hhere htop horigin hasks aim

theorem exists?_without : (d.without (place ++ [name])).exists? p = d.exists? p := by
  obtain ⟨htop, horigin, hasks⟩ := sameAt_without hplace havoids
  exact exists?_of_asks rfl htop horigin hasks

theorem isFolder?_without : (d.without (place ++ [name])).isFolder? p = d.isFolder? p := by
  obtain ⟨htop, horigin, hasks⟩ := sameAt_without hplace havoids
  exact isFolder?_of_asks rfl htop horigin hasks

theorem readText_without : (d.without (place ++ [name])).readText p = d.readText p := by
  obtain ⟨htop, horigin, hasks⟩ := sameAt_without hplace havoids
  have hbytes : (d.without (place ++ [name])).readBytes p = d.readBytes p :=
    readBytes_of_asks rfl rfl htop horigin hasks
  rw [readText, readText, readExact, readExact, hbytes]

end Without

/-- The entries of the folder that one was taken out of. -/
theorem list_without (hlocate : d.locate p .target = .ok (.found place (.folder entries)))
    (hclosed : d.isClosed p = false) (havoids : d.Avoids p (place ++ [name])) :
    (d.without (place ++ [name])).list p = .ok (entries.filter (·.1 != name)) := by
  have hplace := (locate_leads hlocate).2.1
  have hbare := locate_without hplace havoids .target
  rcases Place.cases_of_bare hbare with ⟨fault, h, -⟩ | ⟨names, node, node', h, h', -⟩ |
    ⟨folder, other, h, -⟩
  · rw [hlocate] at h
    cases h
  · rw [hlocate] at h
    obtain ⟨rfl, rfl⟩ := Place.found.inj (Except.ok.inj h)
    have hfound : (d.top.erase (place ++ [name])).find? place = some node' :=
      (locate_leads h').2.1
    rw [find?_erase_self hplace] at hfound
    obtain rfl := Option.some.inj hfound
    have hopen : (d.without (place ++ [name])).isClosed p = false := hclosed
    rw [list, hopen, if_neg Bool.false_ne_true, Disk.entries, h']
  · rw [hlocate] at h
    cases h

end Disk

/-! ## Workspaces without an entry -/

namespace Project

variable {d : Disk} {root : Path} {excluded place : List String} {name : String}
  {entries : List (String × Node)}

/-- The paths that are looked at for an entry of a workspace. -/
def lookedAt (root : Path) (name : String) : List Path :=
  let path := root.extend [name]
  path :: path.extend manifestNames :: markers.map fun marker => path.extend [marker]

/-- Neither the workspace nor any other entry of it leads through the place of the entry. -/
def Apart (d : Disk) (root : Path) (place : List String) (name : String)
    (entries : List (String × Node)) : Prop :=
  d.Avoids root (place ++ [name]) ∧ ∀ entry ∈ entries, entry.1 ≠ name →
    ∀ p ∈ lookedAt root entry.1, d.Avoids p (place ++ [name])

/-- The paths that are looked at for an entry lead through it. -/
theorem of_mem_lookedAt {p : Path} (h : p ∈ lookedAt root name) :
    p.anchor = root.anchor ∧ ∃ more, p.names = root.names ++ name :: more := by
  rcases List.mem_cons.1 h with rfl | h
  · exact ⟨rfl, [], rfl⟩
  rcases List.mem_cons.1 h with rfl | h
  · exact ⟨rfl, manifestNames, by simp [Path.extend]⟩
  · obtain ⟨marker, -, rfl⟩ := List.mem_map.1 h
    exact ⟨rfl, [marker], by simp [Path.extend]⟩

/-- **Without links, every entry is apart from the others.** -/
theorem apart_of_isStraight (hroot : d.isStraight root = true)
    (hothers : ∀ entry ∈ entries, entry.1 ≠ name →
      ∀ p ∈ lookedAt root entry.1, d.isStraight p = true) :
    Apart d root ((d.origin root).reverse ++ root.names) name entries := by
  refine ⟨Disk.avoids_of_isStraight hroot fun hbelow => ?_, fun entry hentry hne p hp => ?_⟩
  · have hlength := hbelow.length_le
    simp only [List.length_append, List.length_singleton] at hlength
    omega
  · refine Disk.avoids_of_isStraight (hothers entry hentry hne p hp) fun hbelow => ?_
    obtain ⟨hanchor, more, hnames⟩ := of_mem_lookedAt hp
    have horigin : d.origin p = d.origin root := by rw [Disk.origin, Disk.origin, hanchor]
    rw [horigin, hnames, ← List.append_assoc, List.prefix_append_right_inj,
      List.cons_prefix_cons] at hbelow
    exact hne hbelow.1.symm

/-- An entry is known from what is at the paths that are looked at for it. -/
theorem ofEntry_congr {d' : Disk} {other : String}
    (h : ∀ p ∈ lookedAt root other, d'.isFolder? p = d.isFolder? p ∧ d'.exists? p = d.exists? p ∧
      d'.readText p = d.readText p) :
    ofEntry d' root excluded other = ofEntry d root excluded other := by
  obtain ⟨hpath, hmore⟩ := List.forall_mem_cons.1 h
  obtain ⟨hmanifest, hmarkers⟩ := List.forall_mem_cons.1 hmore
  have hread : readManifest d' ((root.extend [other]).extend manifestNames) =
      readManifest d ((root.extend [other]).extend manifestNames) := by
    rw [readManifest, readManifest, hmanifest.2.2]
  have hmarked : (markers.anyM fun marker => d'.exists? ((root.extend [other]).extend [marker])) =
      markers.anyM fun marker => d.exists? ((root.extend [other]).extend [marker]) :=
    anyM_congr fun marker hmarker => (hmarkers _ (List.mem_map_of_mem hmarker)).2.1
  simp only [ofEntry, describe, hpath.1, hmanifest.2.1, hread, hmarked]

/-- The other entries are what they were. -/
theorem ofEntry_without {other : String × Node}
    (hplace : d.top.find? place = some (.folder entries)) (hapart : Apart d root place name entries)
    (hother : other ∈ entries) (hne : other.1 ≠ name) :
    ofEntry (d.without (place ++ [name])) root excluded other.1 =
      ofEntry d root excluded other.1 := by
  refine ofEntry_congr fun p hp => ?_
  have havoids := hapart.2 other hother hne p hp
  exact ⟨Disk.isFolder?_without hplace havoids, Disk.exists?_without hplace havoids,
    Disk.readText_without hplace havoids⟩

/-- The projects of entries, in the order of the entries. -/
def ofEntries (d : Disk) (root : Path) (excluded : List String) (entries : List (String × Node)) :
    Except Fault (List Project) :=
  (entries.mapM fun entry => ofEntry d root excluded entry.1).map (List.filterMap id)

theorem discover_eq (hfolder : d.isFolder? root = .ok true) (hlist : d.list root = .ok entries) :
    discover d root excluded = (ofEntries d root excluded entries).map sortProjects := by
  simp only [discover, hfolder, hlist, ofEntries, bind, Except.bind, if_true]
  cases entries.mapM fun entry => ofEntry d root excluded entry.1 <;> rfl

theorem ofEntries_cons (entry : String × Node) : ofEntries d root excluded (entry :: entries) =
    (ofEntry d root excluded entry.1).bind fun first =>
      (ofEntries d root excluded entries).map (first.toList ++ ·) := by
  rw [ofEntries, ofEntries, List.mapM_cons]
  cases ofEntry d root excluded entry.1 with
  | error fault => rfl
  | ok first =>
    cases entries.mapM fun entry => ofEntry d root excluded entry.1 with
    | error fault => rfl
    | ok found => cases first <;> rfl

/-- **Without an entry that is no fault, the projects are the others.** -/
theorem ofEntries_filter (h : ¬Fails (ofEntry d root excluded name)) :
    ofEntries d root excluded (entries.filter (·.1 != name)) =
      (ofEntries d root excluded entries).map (List.filter (·.name != name)) := by
  induction entries with
  | nil => rfl
  | cons entry entries ih =>
    rw [ofEntries_cons]
    by_cases hentry : entry.1 = name
    · rw [List.filter_cons_of_neg (by simp [hentry]), ih, hentry]
      cases hfirst : ofEntry d root excluded name with
      | error fault => exact absurd ⟨fault, hfirst⟩ h
      | ok first =>
        have hnone : first.toList.filter (·.name != name) = [] := by
          cases first with
          | none => rfl
          | some p => simp [(of_ofEntry hfirst).2.1]
        cases ofEntries d root excluded entries with
        | error fault => rfl
        | ok projects => simp [Except.map, Except.bind, List.filter_append, hnone]
    · rw [List.filter_cons_of_pos (by simpa using hentry), ofEntries_cons, ih]
      cases hfirst : ofEntry d root excluded entry.1 with
      | error fault => rfl
      | ok first =>
        have hall : first.toList.filter (·.name != name) = first.toList := by
          cases first with
          | none => rfl
          | some p => simp [(of_ofEntry hfirst).2.1, hentry]
        cases ofEntries d root excluded entries with
        | error fault => rfl
        | ok projects => simp [Except.map, Except.bind, List.filter_append, hall]

section Beside

variable (hlocate : d.locate root .target = .ok (.found place (.folder entries)))
  (hclosed : d.isClosed root = false)

include hlocate hclosed

theorem discover_of_locate :
    discover d root excluded = (ofEntries d root excluded entries).map sortProjects := by
  refine discover_eq (Disk.isFolder?_of_locate hlocate) ?_
  rw [Disk.list, hclosed, if_neg Bool.false_ne_true, Disk.entries, hlocate]

/-- **The projects of a workspace without one entry**, if that one is no fault. -/
theorem discover_without (hapart : Apart d root place name entries)
    (h : ¬Fails (ofEntry d root excluded name)) :
    discover (d.without (place ++ [name])) root excluded =
      (discover d root excluded).map (List.filter (·.name != name)) := by
  have hplace := (Disk.locate_leads hlocate).2.1
  have hfolder : (d.without (place ++ [name])).isFolder? root = .ok true :=
    (Disk.isFolder?_without hplace hapart.1).trans (Disk.isFolder?_of_locate hlocate)
  have hothers : ofEntries (d.without (place ++ [name])) root excluded
      (entries.filter (·.1 != name)) =
        ofEntries d root excluded (entries.filter (·.1 != name)) := by
    refine congrArg (Except.map (List.filterMap id)) (mapM_congr fun other hother => ?_)
    obtain ⟨hmem, hne⟩ := List.mem_filter.1 hother
    exact ofEntry_without hplace hapart hmem (by simpa using hne)
  rw [discover_eq hfolder (Disk.list_without hlocate hclosed hapart.1), hothers,
    ofEntries_filter h, discover_of_locate hlocate hclosed]
  cases ofEntries d root excluded entries with
  | error fault => rfl
  | ok projects => exact congrArg Except.ok (filter_sortByName _ _ projects).symm

theorem fails_discover_of_mem {node : Node} (hname : (name, node) ∈ entries)
    (h : Fails (ofEntry d root excluded name)) : Fails (discover d root excluded) := by
  rw [discover_of_locate hlocate hclosed, fails_map_iff, ofEntries, fails_map_iff, fails_mapM_iff]
  exact ⟨(name, node), hname, h⟩

end Beside

/-! ## Manifests that cannot be used -/

/-- The bytes of a manifest that cannot be used: they are no text, the text cannot be read to its
end, or it has members of the wrong kind. -/
def Spoils (bytes : List UInt8) : Prop :=
  Text.Utf8.decode? bytes = none ∨ ∃ s, Text.Utf8.decode? bytes = some s ∧
    (Fails (Json.ofForeign? (Text.plainNewlines s)) ∨
      ∃ members, Json.ofForeign? (Text.plainNewlines s) = .ok (some (.object members)) ∧
        ¬Usable members)

theorem harmful_iff_spoils {manifest : Path} {bytes : List UInt8}
    (h : d.readBytes manifest = .ok bytes) : Harmful d manifest ↔ Spoils bytes := by
  have hbytes {P : List UInt8 → Prop} :
      (∃ other, d.readBytes manifest = .ok other ∧ P other) ↔ P bytes := by
    simp [h]
  unfold Harmful Spoils Disk.Undecodable Disk.Reads
  rw [hbytes]
  refine or_congr_right ⟨?_, ?_⟩
  · rintro ⟨text, hreads, hfaulty⟩
    obtain ⟨s, hdecode, rfl⟩ := hbytes.1 hreads
    exact ⟨s, hdecode, hfaulty⟩
  · rintro ⟨s, hdecode, hfaulty⟩
    exact ⟨_, hbytes.2 ⟨s, hdecode, rfl⟩, hfaulty⟩

/-- A visible folder with a manifest is a fault if and only if the manifest cannot be used. -/
theorem fails_ofEntry_iff_spoils {bytes : List UInt8}
    (hfolder : d.isFolder? (root.extend [name]) = .ok true)
    (hvisible : isVisible excluded name = true)
    (hbytes : d.readBytes ((root.extend [name]).extend manifestNames) = .ok bytes) :
    Fails (ofEntry d root excluded name) ↔ Spoils bytes := by
  have hentry : ofEntry d root excluded name = describe d (root.extend [name]) := by
    simp [ofEntry, hfolder, hvisible, bind, Except.bind]
  rw [hentry, fails_describe_of_exists (Disk.exists?_of_readBytes hbytes),
    harmful_iff_spoils hbytes]

/-- **A manifest harms the other projects if and only if it cannot be used.** Then no project of the
workspace is found. Else the others are what they are without the project, be it a fault. -/
theorem discover_beside {node : Node} {bytes : List UInt8}
    (hlocate : d.locate root .target = .ok (.found place (.folder entries)))
    (hclosed : d.isClosed root = false) (hname : (name, node) ∈ entries)
    (hfolder : d.isFolder? (root.extend [name]) = .ok true)
    (hvisible : isVisible excluded name = true)
    (hbytes : d.readBytes ((root.extend [name]).extend manifestNames) = .ok bytes)
    (hapart : Apart d root place name entries) :
    (Fails (discover d root excluded) ↔
      Spoils bytes ∨ Fails (discover (d.without (place ++ [name])) root excluded)) ∧
    (¬Spoils bytes → discover (d.without (place ++ [name])) root excluded =
      (discover d root excluded).map (List.filter (·.name != name))) := by
  have hspoils := fails_ofEntry_iff_spoils hfolder hvisible hbytes
  by_cases h : Spoils bytes
  · have hfails := fails_discover_of_mem hlocate hclosed hname (hspoils.2 h)
    exact ⟨iff_of_true hfails (.inl h), fun hno => absurd h hno⟩
  · have hothers := discover_without hlocate hclosed hapart (mt hspoils.1 h)
    refine ⟨?_, fun _ => hothers⟩
    rw [hothers, fails_map_iff, or_iff_right h]

/-- The folder of a project that has a manifest. -/
def besideFolder (manifest : List UInt8) : Node :=
  .folder [(".ai", .folder [("handoff", .folder [("MANIFEST.json", .file manifest)])])]

/-- Two folders: one has the package file of a language, the other one a manifest. -/
def besideEntries (manifest : List UInt8) : List (String × Node) :=
  [("a", .folder [("go.mod", .file [])]), ("q", besideFolder manifest)]

/-- A disk with a workspace of these folders. -/
def besideDisk (manifest : List UInt8) : Disk where
  top := .folder [("w", .folder (besideEntries manifest))]
  here := []

theorem apart_besideDisk : Apart (besideDisk [0x7b]) ⟨.root, ["w"]⟩ ["w"] "q"
    (besideEntries [0x7b]) :=
  apart_of_isStraight rfl (by decide)

theorem not_spoils_cutOff : ¬Spoils [0x7b] := by
  have hdecode : Text.Utf8.decode? [0x7b] = some ['\x7b'] := rfl
  have hforeign : Json.ofForeign? (Text.plainNewlines ['\x7b']) = .ok none := rfl
  rintro (hnone | ⟨s, hs, hfaulty⟩)
  · cases hdecode.symm.trans hnone
  · obtain rfl := Option.some.inj (hdecode.symm.trans hs)
    rw [hforeign] at hfaulty
    rcases hfaulty with hfails | ⟨members, hmembers, -⟩
    · exact not_fails_ok _ hfails
    · cases hmembers

/-- A manifest that is cut off after its first character does no harm. -/
theorem discover_beside_cutOff : ¬Spoils [0x7b] ∧
    discover ((besideDisk [0x7b]).without ["w", "q"]) ⟨.root, ["w"]⟩ [] =
      (discover (besideDisk [0x7b]) ⟨.root, ["w"]⟩ []).map (List.filter (·.name != "q")) := by
  have hmem : ("q", besideFolder [0x7b]) ∈ besideEntries [0x7b] := by simp [besideEntries]
  have hvisible : isVisible [] "q" = true := by decide
  have hbeside := discover_beside (d := besideDisk [0x7b]) rfl rfl hmem rfl hvisible rfl
    apart_besideDisk
  exact ⟨not_spoils_cutOff, hbeside.2 not_spoils_cutOff⟩

/-- Manifests that keep a project beside them from being found: bytes that are no text, a session
without members, and a context that is no text. -/
theorem discover_harmed :
    discover ((besideDisk []).without ["w", "q"]) ⟨.root, ["w"]⟩ [] =
      .ok [plain ⟨.root, ["w", "a"]⟩] ∧
    discover (besideDisk [0xff]) ⟨.root, ["w"]⟩ [] = .error .undecodable ∧
    discover (besideDisk (Text.Utf8.encode "\x7b\"last_session\": [1]\x7d".toList)) ⟨.root, ["w"]⟩
      [] = .error .noMembers ∧
    (discover (besideDisk (Text.Utf8.encode "\x7b\"quick_context\": 5\x7d".toList)) ⟨.root, ["w"]⟩
      []).isOk = false := by
  decide +kernel

end Project

end WorkspaceAudit
