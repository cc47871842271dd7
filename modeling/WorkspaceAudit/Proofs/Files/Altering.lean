import WorkspaceAudit.Proofs.Files.Growing
import WorkspaceAudit.Proofs.Files.Relisting

/-!
# What is altered on a disk

A disk is altered by writing files and making folders at paths. What the paths lead to is what is
new on it: a path may be a link, and then the file behind the link is written.

- `Disk.Alters d d' written made`: the disk has become the other one by files that are written at
  some paths and folders that are made at others; nothing else is different.
- `Disk.Alters.trans`: one alteration after the other.
- `Disk.alters_of_writeBytes`, `Disk.alters_makeFolders`: what the operations on a disk alter.
- `Disk.Alters.settled_eq`: links are never altered, and so paths settle as before.
-/

namespace WorkspaceAudit

/-- The path is one of those on the way to another, or the other itself. -/
def Path.IsOnWay (q p : Path) : Prop :=
  q.anchor = p.anchor ∧ q.names <+: p.names

namespace Disk

open Node

variable {d d' d'' : Disk} {p : Path} {names : List String} {bytes : List UInt8}
  {written made written' made' : Path → Prop}

/-- The path leads to the names, where the node is. -/
def LeadsTo (d : Disk) (p : Path) (names : List String) (node : Node) : Prop :=
  d.locate p .target = .ok (.found names node)

/-- **The disk has become another one** by files that have been written at some paths, and folders
that have been made at others. -/
structure Alters (d d' : Disk) (written made : Path → Prop) : Prop where
  here : d'.here = d.here
  closed : d'.closed = d.closed
  /-- Nothing is gone. -/
  grows : Grows d.top d'.top
  links : ∀ ⦃names target⦄, d'.top.find? names = some (.link target) →
    d.top.find? names = some (.link target)
  files : ∀ ⦃names bytes⦄, d'.top.find? names = some (.file bytes) →
    d.top.find? names = some (.file bytes) ∨ ∃ p, written p ∧ d'.LeadsTo p names (.file bytes)
  folders : ∀ ⦃names entries⦄, d'.top.find? names = some (.folder entries) →
    (∃ entries', d.top.find? names = some (.folder entries')) ∨
      ∃ p, made p ∧ d'.LeadsTo p names (.folder entries)

namespace Alters

theorem refl (d : Disk) (written made : Path → Prop) : d.Alters d written made where
  here := rfl
  closed := rfl
  grows := .refl d.top
  links _ _ h := h
  files _ _ h := .inl h
  folders _ entries h := .inl ⟨entries, h⟩

theorem mono (h : d.Alters d' written made) (hwritten : ∀ p, written p → written' p)
    (hmade : ∀ p, made p → made' p) : d.Alters d' written' made' where
  here := h.here
  closed := h.closed
  grows := h.grows
  links := h.links
  files _ _ hfile := (h.files hfile).imp_right fun ⟨p, hp, hleads⟩ => ⟨p, hwritten p hp, hleads⟩
  folders _ _ hfolder :=
    (h.folders hfolder).imp_right fun ⟨p, hp, hleads⟩ => ⟨p, hmade p hp, hleads⟩

/-- A path goes on leading to where it led. -/
theorem leadsTo (h : d.Alters d' written made) {node node' : Node} (hleads : d.LeadsTo p names node)
    (hnode : d'.top.find? names = some node') (hlink : ∀ target, node' ≠ .link target) :
    d'.LeadsTo p names node' :=
  locate_reaches h.here h.grows hleads hnode hlink

/-- **One alteration after the other.** -/
theorem trans (h : d.Alters d' written made) (h' : d'.Alters d'' written made) :
    d.Alters d'' written made where
  here := h'.here.trans h.here
  closed := h'.closed.trans h.closed
  grows := h.grows.trans h'.grows
  links _ _ hlink := h.links (h'.links hlink)
  files := by
    intro names bytes hfile
    rcases h'.files hfile with hfile' | hnew
    · refine (h.files hfile').imp_right fun ⟨p, hp, hleads⟩ => ⟨p, hp, ?_⟩
      exact h'.leadsTo hleads hfile (by simp)
    · exact .inr hnew
  folders := by
    intro names entries hfolder
    rcases h'.folders hfolder with ⟨entries', hfolder'⟩ | hnew
    · refine (h.folders hfolder').imp_right fun ⟨p, hp, hleads⟩ => ⟨p, hp, ?_⟩
      exact h'.leadsTo hleads hfolder (by simp)
    · exact .inr hnew

/-- **Paths settle as before**: links are neither made nor altered. -/
theorem settled_eq (h : d.Alters d' written made) (p : Path) : d'.settled p = d.settled p := by
  have hlinks (names : List String) (target : String) : d'.top.find? names = some (.link target) ↔
      d.top.find? names = some (.link target) := ⟨@h.links names target, h.grows.link⟩
  simp only [settled, h.here, settle_congr hlinks]

/-- What a path leads to after the alteration is what it settles to before it. -/
theorem settled_of_leadsTo (h : d.Alters d' written made) {node : Node}
    (horigin : Straight d.top (d.origin p)) (hleads : d'.LeadsTo p names node) :
    d.settled p = .ok ⟨.root, names⟩ := by
  have horigin' : Straight d'.top (d'.origin p) := by
    rw [origin, h.here]
    exact h.grows.straight horigin
  rw [← h.settled_eq]
  exact settled_of_resolve (resolve_located horigin' hleads)

end Alters

/-! ## Operations -/

theorem alters_of_takes {place : Place} {node : Node} {aim : Aim}
    (hlocate : d.locate p aim = .ok place) (htakes : Takes d.top place.names node) :
    d.Alters { d with top := d.top.put place.names node }
      (fun q => q = p ∧ ∃ bytes, node = .file bytes)
      (fun q => q = p ∧ ∃ entries, node = .folder entries) := by
  have hleads : LeadsTo { d with top := d.top.put place.names node } p place.names node := by
    refine locate_reaches (d := d) ?_ ?_ hlocate htakes.find?_new htakes.ne_link
    · rfl
    · exact htakes.grows
  -- In each case, what is at a place now is the node that was put, a folder that was there, or the
  -- same as before.
  refine ⟨rfl, rfl, htakes.grows, ?links, ?files, ?folders⟩
  case links =>
    intro names target hlink
    rcases htakes.find?_cases names with ⟨rfl, hnew⟩ | ⟨es, es', -, hnew⟩ | hsame
    · exact absurd (Option.some.inj (hnew.symm.trans hlink)) (htakes.ne_link target)
    · cases hnew.symm.trans hlink
    · exact hsame.symm.trans hlink
  case files =>
    intro names bytes hfile
    rcases htakes.find?_cases names with ⟨rfl, hnew⟩ | ⟨es, es', -, hnew⟩ | hsame
    · obtain rfl := Option.some.inj (hnew.symm.trans hfile)
      exact .inr ⟨p, ⟨rfl, bytes, rfl⟩, hleads⟩
    · cases hnew.symm.trans hfile
    · exact .inl (hsame.symm.trans hfile)
  case folders =>
    intro names entries hfolder
    rcases htakes.find?_cases names with ⟨rfl, hnew⟩ | ⟨es, es', hold, -⟩ | hsame
    · obtain rfl := Option.some.inj (hnew.symm.trans hfolder)
      exact .inr ⟨p, ⟨rfl, entries, rfl⟩, hleads⟩
    · exact .inl ⟨es, hold⟩
    · exact .inl ⟨entries, hsame.symm.trans hfolder⟩

/-- **Writing alters the file that the path leads to.** -/
theorem alters_of_writeBytes (h : d.writeBytes p bytes = .ok d') :
    d.Alters d' (· = p) fun _ => False := by
  obtain ⟨-, place, hlocate, htakes, rfl⟩ := exists_place_of_writeBytes h
  refine (alters_of_takes hlocate htakes).mono (fun q hq => hq.1) ?_
  rintro q ⟨-, entries, ⟨⟩⟩

theorem alters_of_makeFolder (h : d.makeFolder p = .ok d') :
    d.Alters d' (fun _ => False) (· = p) := by
  unfold makeFolder at h
  split at h
  · rename_i other hplace
    obtain rfl := Except.ok.inj h
    unfold place at hplace
    split at hplace
    · cases hplace
    · rename_i folder name hlocate
      obtain rfl := Except.ok.inj hplace
      obtain ⟨entries, hfound, hunused⟩ := walk_isIn (walk_of_locate hlocate).2.2
      refine (alters_of_takes hlocate (.free hfound hunused (.inr rfl))).mono ?_ fun q hq => hq.1
      rintro q ⟨-, bytes, ⟨⟩⟩
    · cases hplace
  · split at h
    · split at h
      · obtain rfl := Except.ok.inj h
        exact .refl d _ _
      all_goals cases h
    · cases h

theorem alters_makeFoldersAt (anchor : Anchor) (limit : Nat) (up : List String) (d : Disk) :
    d.Alters (makeFoldersAt anchor limit up d).2 (fun _ => False)
      fun q => q.IsOnWay ⟨anchor, up.reverse⟩ := by
  have hself (names : List String) (q : Path) (hq : q = ⟨anchor, names⟩) :
      q.IsOnWay ⟨anchor, names⟩ := by
    subst hq
    exact ⟨rfl, List.prefix_rfl⟩
  have hup (name : String) (up : List String) (q : Path) (hq : q.IsOnWay ⟨anchor, up.reverse⟩) :
      q.IsOnWay ⟨anchor, (name :: up).reverse⟩ := by
    refine ⟨hq.1, hq.2.trans ?_⟩
    simp
  -- The folder is made at once, or after the one above it; a second attempt may fail again.
  fun_induction makeFoldersAt anchor limit up d with
  | case1 _ d => exact .refl d _ _
  | case2 _ _ _ _ _ _ hmake => exact (alters_of_makeFolder hmake).mono (fun _ => id) (hself _)
  | case3 _ _ d => exact .refl d _ _
  | case4 name up d p hnone limit a above hmade other hmake ih =>
    rw [hmade] at ih
    refine (ih.mono (fun _ => id) (hup name up)).trans ?_
    exact (alters_of_makeFolder hmake).mono (fun _ => id) (hself _)
  | case5 name up d p hnone limit a above hmade fault hmake ih =>
    rw [hmade] at ih
    exact ih.mono (fun _ => id) (hup name up)
  | case6 name up d p hnone limit _ ih => exact ih.mono (fun _ => id) (hup name up)
  | case7 => exact .refl _ _ _

/-- **Making folders alters those on the way to the path**, also if it fails on the way. -/
theorem alters_makeFolders (d : Disk) (p : Path) :
    d.Alters (d.makeFolders p).2 (fun _ => False) (·.IsOnWay p) := by
  have halters := alters_makeFoldersAt p.anchor folderLimit p.names.reverse d
  rwa [List.reverse_reverse] at halters

end Disk

end WorkspaceAudit
