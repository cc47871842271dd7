import WorkspaceAudit.Proofs.Files.Growing
import WorkspaceAudit.Proofs.Report.RoundTrip
import WorkspaceAudit.Proofs.Text.Utf8
import WorkspaceAudit.Proofs.Workspace.Actions
import WorkspaceAudit.Proofs.Workspace.Failing

/-!
# Settings survive being stored

- `Config.ofText_render`: settings are read back from what is written of them, whatever characters
  they have.
- `Config.Stored`: the file of the settings holds some; `Config.stored_of_save`: it does when they
  have been saved, and `Config.load_of_stored`: then they are loaded.
- `Config.save_of_stored`: others can be saved in their place.
- `BlockLevel.ofText_eq_ok_iff`: the texts that are levels.
-/

namespace WorkspaceAudit

/-! ## Levels -/

namespace BlockLevel

theorem ofName?_eq_some_iff {s : String} {level : BlockLevel} :
    ofName? s = some level ↔ level.name = s := by
  constructor
  · intro h
    unfold ofName? at h
    have hname := List.find?_some h
    exact beq_iff_eq.1 hname
  · rintro rfl
    cases level <;> decide

/-- The texts of a level are those whose capital letters are its name. -/
theorem ofText_eq_ok_iff {text : String} {level : BlockLevel} :
    ofText text = .ok level ↔ text.toList.map Text.capitalLatin = level.name.toList := by
  have hname : ofName? (String.ofList (text.toList.map Text.capitalLatin)) = some level ↔
      text.toList.map Text.capitalLatin = level.name.toList := by
    rw [ofName?_eq_some_iff, ← String.toList_inj, String.toList_ofList, eq_comm]
  rw [← hname, ofText]
  cases ofName? (String.ofList (text.toList.map Text.capitalLatin)) with
  | none => simp
  | some other => simp

end BlockLevel

namespace Config

variable {c : Config} {m m' : Machine} {path : Path}

/-! ## The text of settings -/

/-- Settings are read back from what is written of them. -/
theorem check_toJson (c : Config) : check c.toJson = .ok c := by
  have hexcluded : Check.list Check.text (.array (c.excluded.map .string)) = .ok c.excluded := by
    rw [Check.list, Check.itemsFrom_eq_ok_iff, List.map_map]
    rfl
  have hlevel : BlockLevel.ofName? c.blockOn.name = some c.blockOn :=
    BlockLevel.ofName?_eq_some_iff.2 rfl
  simp only [toJson, check, Check.object, Checked.map_eq_ok_iff, Checked.and_eq_ok_iff, Prod.exists]
  exact ⟨_, _, _, ⟨Check.optional_ofOption rfl fun root _ => ⟨by simp, rfl⟩,
    Check.withDefault_eq_ok_iff.2 (.inl ⟨_, rfl, Check.named_string hlevel⟩),
    Check.withDefault_eq_ok_iff.2 (.inl ⟨_, rfl, hexcluded⟩)⟩, rfl⟩

theorem faithful_toJson (c : Config) : c.toJson.Faithful Json.Dialect.own.depth := by
  have hroot : (Json.ofOption .string c.workspaceRoot).Faithful 199 := by
    cases c.workspaceRoot with
    | none => exact .null
    | some root => exact .string
  have hexcluded : (Json.array (c.excluded.map .string)).Faithful 199 := by
    refine .array fun v hv => ?_
    obtain ⟨name, -, rfl⟩ := List.mem_map.1 hv
    exact .string (n := 198)
  refine .object (n := 199) (by simp) ?_
  simp only [List.forall_mem_cons, List.not_mem_nil, false_implies, implies_true, and_true]
  exact ⟨hroot, .string, hexcluded⟩

theorem toList_render (c : Config) : c.render.toList = Json.write .escaped 0 c.toJson := by
  simp [render, Json.render]

theorem clean_render (c : Config) : Json.Clean c.render.toList := by
  rw [toList_render]
  exact c.faithful_toJson.clean _ _

/-- **Settings are read back from their text**, also with a gap after it. -/
theorem ofText_render (c : Config) {gap : List Char} (hgap : Json.Gap gap) :
    Checked.ofText check (c.render.toList ++ gap) = .ok c := by
  rw [Checked.ofText, toList_render, Json.parse_write_append c.faithful_toJson _ hgap]
  exact c.check_toJson

/-! ## Stored settings -/

/-- The file of the settings can be read, and these are in it. -/
def Stored (c : Config) (m : Machine) : Prop :=
  ∃ path text, m.configPath = .ok path ∧ m.disk.Reads path text ∧
    Checked.ofText check text = .ok c

theorem load_of_stored (h : c.Stored m) : load m = .ok c := by
  obtain ⟨path, text, hpath, hreads, hcheck⟩ := h
  have hthere : m.disk.exists? path = .ok true := by
    obtain ⟨bytes, hbytes, -⟩ := hreads
    exact Disk.exists?_of_readBytes hbytes
  simp only [load, hpath, hthere, hreads.readText_eq, hcheck, bind, Except.bind, if_true]
  rfl

/-- What can come of storing settings: their path is not known, the folder of their file cannot be
made, the file cannot be written, or all is done. What has been made before a fault stays. -/
inductive Saves (c : Config) (m : Machine) : Except Fault Path × Machine → Prop where
  | noPath {fault : Fault} (hpath : m.configPath = .error fault) : Saves c m (.error fault, m)
  | noFolder {path : Path} {fault : Fault} {made : Disk} (hpath : m.configPath = .ok path)
      (hmake : m.disk.makeFolders path.parent = (.error fault, made)) :
      Saves c m (.error fault, { m with disk := made })
  | noFile {path : Path} {fault : Fault} {made : Disk} (hpath : m.configPath = .ok path)
      (hmake : m.disk.makeFolders path.parent = (.ok (), made))
      (hwrite : made.writeText path c.render = .error fault) :
      Saves c m (.error fault, { m with disk := made })
  | done {path : Path} {made d : Disk} (hpath : m.configPath = .ok path)
      (hmake : m.disk.makeFolders path.parent = (.ok (), made))
      (hwrite : made.writeText path c.render = .ok d) : Saves c m (.ok path, { m with disk := d })

theorem Saves.run_eq {result : Except Fault Path × Machine} (h : c.Saves m result) :
    c.save.run m = result := by
  unfold save
  cases h with
  | noPath hpath => rw [run_bind_error (Action.inspect_run_error hpath)]
  | noFolder hpath hmake =>
    rw [run_bind_ok (Action.inspect_run_ok hpath), run_bind_error (Action.makeFolders_run hmake)]
  | @noFile path fault made hpath hmake hwrite =>
    have hchange : (Action.change (·.writeText path c.render)).run { m with disk := made } = _ :=
      Action.change_run_error hwrite
    rw [run_bind_ok (Action.inspect_run_ok hpath), run_bind_ok (Action.makeFolders_run hmake),
      run_bind_error hchange]
  | @done path made d hpath hmake hwrite =>
    have hchange : (Action.change (·.writeText path c.render)).run { m with disk := made } = _ :=
      Action.change_run_ok hwrite
    rw [run_bind_ok (Action.inspect_run_ok hpath), run_bind_ok (Action.makeFolders_run hmake),
      run_bind_ok hchange]
    rfl

theorem saves (c : Config) (m : Machine) : c.Saves m (c.save.run m) := by
  have hsome : ∃ result, c.Saves m result := by
    cases hpath : m.configPath with
    | error fault => exact ⟨_, .noPath hpath⟩
    | ok path =>
      rcases hmake : m.disk.makeFolders path.parent with ⟨fault | _, made⟩
      · exact ⟨_, .noFolder hpath hmake⟩
      · cases hwrite : made.writeText path c.render with
        | error fault => exact ⟨_, .noFile hpath hmake hwrite⟩
        | ok d => exact ⟨_, .done hpath hmake hwrite⟩
  obtain ⟨result, hresult⟩ := hsome
  rw [hresult.run_eq]
  exact hresult

/-- **Settings that have been stored are in their file.** -/
theorem stored_of_save (h : c.save.run m = (.ok path, m')) : c.Stored m' := by
  have hsaves := c.saves m
  rw [h] at hsaves
  cases hsaves with
  | done hpath hmake hwrite =>
    refine ⟨path, c.render.toList, hpath, ⟨_, Disk.readBytes_of_writeBytes hwrite, _,
      Text.Utf8.decode?_encode _, c.clean_render.plainNewlines_eq.symm⟩, ?_⟩
    have hcheck := c.ofText_render Json.gap_nil
    rwa [List.append_nil] at hcheck

theorem configPath_of_save (h : c.save.run m = (.ok path, m')) : m.configPath = .ok path := by
  have hsaves := c.saves m
  rw [h] at hsaves
  cases hsaves with
  | done hpath hmake hwrite => exact hpath

/-- Whether settings can be stored does not depend on them. -/
theorem save_outcome (c other : Config) (m : Machine) :
    (c.save.run m).1 = (other.save.run m).1 := by
  have hsaves := c.saves m
  generalize c.save.run m = result at hsaves ⊢
  cases hsaves with
  | noPath hpath => rw [Saves.run_eq (.noPath hpath)]
  | noFolder hpath hmake => rw [Saves.run_eq (.noFolder hpath hmake)]
  | noFile hpath hmake hwrite =>
    have hother := Disk.writeBytes_error hwrite (Text.Utf8.encode other.render.toList)
    rw [Saves.run_eq (.noFile hpath hmake hother)]
  | @done path made d hpath hmake hwrite =>
    cases hother : made.writeText path other.render with
    | error fault =>
      have herror := Disk.writeBytes_error hother (Text.Utf8.encode c.render.toList)
      cases herror.symm.trans hwrite
    | ok d' => rw [Saves.run_eq (.done hpath hmake hother)]

/-- **Where settings are stored, others can take their place.** -/
theorem save_of_stored (h : c.Stored m) (other : Config) :
    ∃ path m', other.save.run m = (.ok path, m') := by
  obtain ⟨path, text, hpath, ⟨bytes, hbytes, -⟩, -⟩ := h
  obtain ⟨hclosed, names, hlocate⟩ := Disk.exists_file_of_readBytes hbytes
  have hmake : m.disk.makeFolders path.parent = (.ok (), m.disk) := by
    by_cases hnames : path.names = []
    · rw [Disk.makeFolders, Path.parent, hnames]
      rfl
    · obtain ⟨folder, entries, hfolder⟩ := Disk.folder_of_locate hlocate hnames
      exact Disk.makeFolders_of_folder hfolder
  have hwrite := Disk.writeBytes_of_file hclosed hlocate (Text.Utf8.encode other.render.toList)
  exact ⟨path, _, Saves.run_eq (.done hpath hmake hwrite)⟩

end Config

end WorkspaceAudit
