import WorkspaceAudit.Proofs.Files.Walking
import WorkspaceAudit.Proofs.Workspace.Altering

/-!
# Disks without two entries of one name

Writing a file and making a folder leave the entries of every folder with names of their own, and so
does all that a scan does to a disk.

- `Node.named_put`: names stay different when a node is put into a tree.
- `Preserves P x`: if `P` holds before a run of `x`, it holds after it, however it ends.
- `Report.distinct_save`, `Report.distinct_savePage`: storing reports and pages preserves this.
- `scanProject_disk`: a scan leaves the disk as it is.
-/

namespace WorkspaceAudit

namespace Node

variable {top node : Node} {entries : List (String × Node)} {name : String}

theorem mem_putEntry {entry : String × Node} (h : entry ∈ putEntry name node entries) :
    entry = (name, node) ∨ entry ∈ entries := by
  fun_induction putEntry name node entries with
  | case1 => exact .inl (List.mem_singleton.1 h)
  | case2 other old more hname => exact (List.mem_cons.1 h).imp_right (List.mem_cons_of_mem _)
  | case3 other old more hname ih =>
    rcases List.mem_cons.1 h with rfl | h
    · exact .inr List.mem_cons_self
    · exact (ih h).imp_right (List.mem_cons_of_mem _)

theorem nodup_putEntry (h : (entries.map Prod.fst).Nodup) :
    ((putEntry name node entries).map Prod.fst).Nodup := by
  fun_induction putEntry name node entries with
  | case1 => simp
  | case2 other old more hname =>
    obtain rfl : other = name := by simpa using hname
    exact h
  | case3 other old more hname ih =>
    rw [List.map_cons, List.nodup_cons] at h ⊢
    refine ⟨fun hmem => ?_, ih h.2⟩
    obtain ⟨entry, hentry, hother⟩ := List.mem_map.1 hmem
    rcases mem_putEntry hentry with rfl | hentry
    · exact hname (by simpa using hother.symm)
    · exact h.1 (hother ▸ List.mem_map_of_mem hentry)

/-- Names stay different when a node is put into a tree. -/
theorem named_put (h : top.Named fun _ => True) (hnode : node.Named fun _ => True)
    (names : List String) : (top.put names node).Named fun _ => True := by
  induction names generalizing top with
  | nil => exact hnode
  | cons name rest ih =>
    cases h with
    | file bytes => exact .file bytes
    | link target => exact .link target
    | @folder entries distinct _ nodes =>
      refine .folder (nodup_putEntry distinct) (fun _ _ => trivial) fun entry hentry => ?_
      rcases mem_putEntry hentry with rfl | hentry
      · refine ih ?_
        cases hlookup : entries.lookup name with
        | none => exact .folder (by simp) (by simp) (by simp)
        | some old => exact nodes (name, old) ((lookup_iff_mem distinct).1 hlookup)
      · exact nodes entry hentry

end Node

theorem Disk.distinct_of_makeFolder {d d' : Disk} {p : Path} (hd : d.Distinct)
    (h : d.makeFolder p = .ok d') : d'.Distinct := by
  unfold makeFolder place at h
  split at h
  · rename_i other hplace
    obtain rfl := Except.ok.inj h
    split at hplace
    · cases hplace
    · obtain rfl := Except.ok.inj hplace
      exact Node.named_put hd (.folder (by simp) (by simp) (by simp)) _
    · cases hplace
  · split at h
    · split at h
      · obtain rfl := Except.ok.inj h
        exact hd
      all_goals cases h
    · cases h

theorem Disk.distinct_writeBytes {d d' : Disk} {p : Path} {bytes : List UInt8} (hd : d.Distinct)
    (h : d.writeBytes p bytes = .ok d') : d'.Distinct := by
  obtain ⟨-, place, -, -, rfl⟩ := exists_place_of_writeBytes h
  exact Node.named_put hd (.file _) _

/-- **No folder comes to have two entries of one name** when folders are made. -/
theorem Disk.distinct_makeFolders {d : Disk} (p : Path) (hd : d.Distinct) :
    (d.makeFolders p).2.Distinct := by
  unfold makeFolders
  generalize folderLimit = limit, p.names.reverse = up
  fun_induction makeFoldersAt p.anchor limit up d with
  | case1 => exact hd
  | case2 _ _ _ _ _ _ hmake => exact distinct_of_makeFolder hd hmake
  | case3 => exact hd
  | case4 name up d p hnone limit a above hmade other hmake ih =>
    rw [hmade] at ih
    exact distinct_of_makeFolder (ih hd) hmake
  | case5 name up d p hnone limit a above hmade fault hmake ih =>
    rw [hmade] at ih
    exact ih hd
  | case6 name up d p hnone limit _ ih => exact ih hd
  | case7 => exact hd

/-! ## Actions -/

/-- The property holds after a run if it holds before it, also if the run ends early. -/
def Preserves {α : Type} (P : Machine → Prop) (x : Action α) : Prop :=
  ∀ m, P m → P (x.run m).2

theorem Preserves.bind {α β : Type} {P : Machine → Prop} {x : Action α} {f : α → Action β}
    (hx : Preserves P x) (hf : ∀ a, Preserves P (f a)) : Preserves P (x >>= f) := by
  intro m
  refine related_bind (R := fun m m' => P m → P m') ?_ (hx m) fun a m' _ _ => hf a m'
  intro m₁ m₂ m₃ h₁ h₂ h
  exact h₂ (h₁ h)

section Actions

variable {α : Type} {P : Machine → Prop}

theorem preserves_pure (a : α) : Preserves P (pure a) := fun _ h => h

theorem preserves_inspect (f : Machine → Except Fault α) : Preserves P (Action.inspect f) := by
  intro m h
  rwa [Action.inspect_run]

theorem distinct_change {f : Disk → Except Fault Disk}
    (hf : ∀ d d', d.Distinct → f d = .ok d' → d'.Distinct) :
    Preserves (·.disk.Distinct) (Action.change f) := by
  intro m h
  cases hchange : f m.disk with
  | error fault => rwa [Action.change_run_error hchange]
  | ok d =>
    rw [Action.change_run_ok hchange]
    exact hf m.disk d h hchange

theorem distinct_makeFolders (p : Path) :
    Preserves (·.disk.Distinct) (Action.makeFolders p) := by
  intro m h
  rw [Action.makeFolders_run rfl]
  exact Disk.distinct_makeFolders p h

theorem Report.distinct_save (r : Report) : Preserves (·.disk.Distinct) r.save := by
  refine (preserves_inspect _).bind fun folder => (distinct_makeFolders folder).bind fun _ => ?_
  refine (distinct_change fun d d' hd hwrite => ?_).bind fun _ => preserves_pure _
  obtain ⟨text, -, hwrite⟩ := exists_ok_of_bind hwrite
  exact Disk.distinct_writeBytes hd hwrite

theorem Report.distinct_savePage (r : Report) (folder : Path) :
    Preserves (·.disk.Distinct) (r.savePage folder) := by
  refine (distinct_change fun d d' hd hwrite => ?_).bind fun _ => preserves_pure _
  obtain ⟨text, -, hwrite⟩ := exists_ok_of_bind hwrite
  exact Disk.distinct_writeBytes hd hwrite

/-- A scan leaves the disk as it is. -/
theorem scanProject_disk (scanners : List ProjectScanner) (project : Path) (m : Machine) :
    ((scanProject scanners project).run m).2.disk = m.disk := by
  cases hroot : m.disk.resolve project with
  | error fault => rw [scanProject_run_of_resolve_error hroot]; rfl
  | ok root =>
    cases hnow : m.now with
    | error fault => rw [scanProject_run_of_now_error hroot hnow]; rfl
    | ok now => rw [scanProject_run hroot hnow]; rfl

end Actions

end WorkspaceAudit
