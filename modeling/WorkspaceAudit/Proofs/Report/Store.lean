import WorkspaceAudit.Proofs.Files.Writing
import WorkspaceAudit.Proofs.Report.Names
import WorkspaceAudit.Proofs.Report.RoundTrip
import WorkspaceAudit.Proofs.Text.Located
import WorkspaceAudit.Proofs.Text.Utf8
import WorkspaceAudit.Proofs.Workspace.Actions

/-!
# The store of reports

- `Report.save_of_accepts`, `Report.save_of_not_accepts`: what one save does in a folder that is
  there. `Disk.Accepts` says which of the two it is.
- `Report.Stored`: which reports have been stored, as an invariant; `Report.Stored.foldl_saveNext`:
  any history keeps it, from `Report.Provides` on.
- `Report.IsLatest`: which report has to be found; `Report.Stored.latest?`: it is, if no number in
  it is too long.
- `Report.latest?_saveAll`: all of this for histories from the first save on.
-/

namespace WorkspaceAudit

open Node

/-! ## The file of a report -/

namespace Report

variable {r : Report} {m : Machine} {folder : Path} {p : String} {d : Disk}

theorem isDigit_or_of_mem_text {d : Date} {c : Char} (h : c ∈ d.text.toList) :
    Text.Decimal.isDigit c = true ∨ c = '-' := by
  rw [Date.toList_text, List.mem_append, List.mem_cons, List.mem_append, List.mem_cons] at h
  rcases h with h | h | h | h | h
  · exact .inl (Text.Decimal.isDigit_of_mem_padded h)
  · exact .inr h
  · exact .inl (Text.Decimal.isDigit_of_mem_padded h)
  · exact .inr h
  · exact .inl (Text.Decimal.isDigit_of_mem_padded h)

/-- A character of the name of a report that is not one of the project's is harmless. -/
theorem mem_fileName {c : Char} (h : c ∈ r.fileName.toList) (hc : c = '/' ∨ c = '\x00') :
    c ∈ r.project.toList := by
  rw [toList_fileName, List.mem_append, List.mem_cons, List.mem_append] at h
  rcases h with h | h | h | h
  · exact h
  · rcases hc with rfl | rfl <;> exact absurd h (by decide)
  · rcases hc with rfl | rfl <;> exact absurd (isDigit_or_of_mem_text h) (by decide)
  · rcases hc with rfl | rfl <;> exact absurd h (by decide)

theorem length_fileName (r : Report) : 16 ≤ r.fileName.toList.length := by
  have hjson : ".json".toList.length = 5 := by decide
  simp only [toList_fileName, List.length_append, List.length_cons, Date.length_text, hjson]
  omega

theorem fileName_ne_of_short {name : String} (h : name.toList.length < 16) : name ≠ r.fileName := by
  rintro rfl
  exact absurd (length_fileName r) (Nat.not_le.2 h)

theorem isEntryName_fileName (hslash : '/' ∉ r.project.toList) (hnul : '\x00' ∉ r.project.toList) :
    IsEntryName r.fileName := by
  refine ⟨⟨?_, ?_, ?_⟩, fun h => hslash (mem_fileName h (.inl rfl)),
    fun h => hnul (mem_fileName h (.inr rfl))⟩
  all_goals exact (fileName_ne_of_short (by decide)).symm

/-- A text that is a name stands below a folder as that name. -/
theorem below_of_slash_not_mem {name : String} (hslash : '/' ∉ name.toList) (hempty : name ≠ "")
    (hdot : name ≠ ".") (folder : Path) : folder.below name = folder.extend [name] := by
  have hnames : Path.namesOf name.toList = [name] := by
    simp [Path.namesOf, Text.splitOn_of_not_mem hslash, hempty, hdot]
  have hanchor : Anchor.ofChars name.toList = .here := by
    cases hlist : name.toList with
    | nil => rfl
    | cons c rest =>
      have hc : (c == '/') = false := by
        rw [hlist] at hslash
        simpa using Ne.symm (not_or.1 (mt List.mem_cons.2 hslash)).1
      simp [Anchor.ofChars, hc]
  simp [Path.below, Path.join, Path.ofString, hanchor, hnames]

theorem below_of_isEntryName {name : String} (h : IsEntryName name) (folder : Path) :
    folder.below name = folder.extend [name] :=
  below_of_slash_not_mem h.2.1 h.1.1 h.1.2.1 folder

theorem name_below {name : String} (hslash : '/' ∉ name.toList) (hempty : name ≠ "")
    (hdot : name ≠ ".") (folder : Path) : (folder.below name).name = name := by
  rw [below_of_slash_not_mem hslash hempty hdot, Path.name, Path.extend, List.getLastD_concat]

/-- The path of a report ends with its name. -/
theorem name_below_fileName (h : '/' ∉ r.project.toList) (folder : Path) :
    (folder.below r.fileName).name = r.fileName :=
  name_below (fun hslash => h (mem_fileName hslash (.inl rfl)))
    (fileName_ne_of_short (by decide)).symm (fileName_ne_of_short (by decide)).symm folder

/-- A page is no report. -/
theorem name_page_ne_fileName (r : Report) (folder : Path) :
    (folder.below "SECURITY.md").name ≠ r.fileName := by
  rw [name_below (by decide) (by decide) (by decide)]
  exact fileName_ne_of_short (by decide)

/-! ## One save -/

/-- The bytes of the file of a report. -/
def bytes (r : Report) : List UInt8 := Text.Utf8.encode r.render.toList

theorem encoded_of_valid (h : r.Valid) : r.encoded = .ok r.render := by
  have hlone : r.findings.findSome? Finding.lone = none :=
    List.findSome?_eq_none_iff.2 fun f hf => (h.findings f hf).1
  rw [encoded, hlone]

/-- What is written of a report that is valid are its bytes. -/
theorem writeText_encoded (h : r.Valid) (d : Disk) (p : Path) :
    (do d.writeText p (← r.encoded)) = d.writeBytes p r.bytes := by
  have hbind : (do d.writeText p (← (.ok r.render : Except Fault String))) =
      d.writeText p r.render := rfl
  rw [encoded_of_valid h, hbind, Disk.writeText, bytes]

section Runs

variable {made d : Disk} {fault : Fault}

theorem save_run_ok (hfolder : m.reportsFolder = .ok folder)
    (hmake : m.disk.makeFolders folder = (.ok (), made)) (hvalid : r.Valid)
    (hwrite : made.writeBytes (folder.below r.fileName) r.bytes = .ok d) :
    r.save.run m = (.ok (folder.below r.fileName), { m with disk := d }) := by
  have hchange := (writeText_encoded hvalid made (folder.below r.fileName)).trans hwrite
  rw [save, run_bind_ok (Action.inspect_run_ok hfolder), run_bind_ok (Action.makeFolders_run hmake),
    run_bind_ok (Action.change_run_ok hchange)]
  rfl

theorem save_run_error (hfolder : m.reportsFolder = .ok folder)
    (hmake : m.disk.makeFolders folder = (.ok (), made)) (hvalid : r.Valid)
    (hwrite : made.writeBytes (folder.below r.fileName) r.bytes = .error fault) :
    r.save.run m = (.error fault, { m with disk := made }) := by
  have hchange := (writeText_encoded hvalid made (folder.below r.fileName)).trans hwrite
  rw [save, run_bind_ok (Action.inspect_run_ok hfolder), run_bind_ok (Action.makeFolders_run hmake),
    run_bind_error (Action.change_run_error hchange)]

theorem save_run_of_makeFolders_error (r : Report) (hfolder : m.reportsFolder = .ok folder)
    (hmake : m.disk.makeFolders folder = (.error fault, d)) :
    r.save.run m = (.error fault, { m with disk := d }) := by
  unfold save
  rw [run_bind_ok (Action.inspect_run_ok hfolder),
    run_bind_error (Action.makeFolders_run hmake)]

end Runs

/-- The reports of a machine are in a folder that is there, at a place and with entries. -/
structure Holds (m : Machine) (folder : Path) (place : List String)
    (entries : List (String × Node)) : Prop where
  path : m.reportsFolder = .ok folder
  there : m.disk.locate folder .target = .ok (.found place (.folder entries))

/-- The report can be stored beside entries: it is valid, its project can be part of a name, and its
file is not a link. -/
structure Storable (entries : List (String × Node)) (r : Report) : Prop where
  valid : r.Valid
  noSlash : '/' ∉ r.project.toList
  noNul : '\x00' ∉ r.project.toList
  noLink : ∀ target, entries.lookup r.fileName ≠ some (.link target)

variable {place : List String} {entries : List (String × Node)}

theorem Storable.isEntryName (h : r.Storable entries) : IsEntryName r.fileName :=
  isEntryName_fileName h.noSlash h.noNul

/-- Only a file is in the way where a file can be written. -/
theorem Storable.exists_file (h : r.Storable entries)
    (haccepts : m.disk.Accepts folder entries r.fileName) (old : Node)
    (hold : entries.lookup r.fileName = some old) : ∃ bytes, old = .file bytes := by
  cases old with
  | file bytes => exact ⟨bytes, rfl⟩
  | link target => exact absurd hold (h.noLink target)
  | folder es =>
    have hfolder := haccepts.2.2
    simp [hold, Node.isFolder] at hfolder

theorem save_of_accepts (h : Holds m folder place entries) (hr : r.Storable entries)
    (haccepts : m.disk.Accepts folder entries r.fileName) :
    r.save.run m = (.ok (folder.extend [r.fileName]),
      { m with disk := m.disk.withFile place r.fileName r.bytes }) := by
  have hpath := below_of_isEntryName hr.isEntryName folder
  rw [← hpath]
  refine save_run_ok h.path (Disk.makeFolders_of_folder h.there) hr.valid ?_
  rw [hpath]
  exact Disk.writeBytes_of_accepts h.there hr.isEntryName hr.noLink haccepts r.bytes

theorem save_of_not_accepts (h : Holds m folder place entries) (hr : r.Storable entries)
    (haccepts : ¬m.disk.Accepts folder entries r.fileName) :
    ∃ fault, r.save.run m = (.error fault, m) := by
  obtain ⟨fault, hwrite⟩ :=
    Disk.writeBytes_of_not_accepts h.there hr.isEntryName haccepts r.bytes
  rw [← below_of_isEntryName hr.isEntryName folder] at hwrite
  exact ⟨fault, save_run_error h.path (Disk.makeFolders_of_folder h.there) hr.valid hwrite⟩

theorem Holds.withFile (h : Holds m folder place entries) (hr : r.Storable entries)
    (haccepts : m.disk.Accepts folder entries r.fileName) :
    Holds { m with disk := m.disk.withFile place r.fileName r.bytes } folder place
      (putEntry r.fileName (.file r.bytes) entries) :=
  ⟨h.path, Disk.locate_withFile h.there (hr.exists_file haccepts) r.bytes⟩

/-! ## Entries after saves -/

/-- The entries of the folder after reports have been stored there. -/
def entriesAfter (saved : List Report) (entries : List (String × Node)) : List (String × Node) :=
  saved.foldl (fun entries r => putEntry r.fileName (.file r.bytes) entries) entries

variable {saved : List Report} {name : String}

theorem entriesAfter_append (saved : List Report) (r : Report) :
    entriesAfter (saved ++ [r]) entries =
      putEntry r.fileName (.file r.bytes) (entriesAfter saved entries) := by
  simp [entriesAfter]

/-- The last report of a name is under that name, and nothing else has changed. -/
theorem lookup_entriesAfter (saved : List Report) (entries : List (String × Node)) (name : String) :
    (entriesAfter saved entries).lookup name =
      ((saved.reverse.find? (·.fileName == name)).map fun r => .file r.bytes).or
        (entries.lookup name) := by
  induction saved generalizing entries with
  | nil => rfl
  | cons r saved ih =>
    have hcons : entriesAfter (r :: saved) entries =
      entriesAfter saved (putEntry r.fileName (.file r.bytes) entries) := rfl
    rw [hcons, ih, lookup_putEntry, List.reverse_cons, List.find?_append]
    cases saved.reverse.find? (·.fileName == name) with
    | some last => rfl
    | none =>
      by_cases hname : name = r.fileName
      · simp [hname]
      · simp [hname, beq_false_of_ne (Ne.symm hname)]

theorem mem_names_putEntry {node : Node} {other : String} :
    other ∈ (putEntry name node entries).map Prod.fst ↔
      other = name ∨ other ∈ entries.map Prod.fst := by
  induction entries with
  | nil => simp [putEntry]
  | cons entry entries ih =>
    obtain ⟨first, old⟩ := entry
    rw [putEntry]
    split
    · rename_i hfirst
      obtain rfl : first = name := by simpa using hfirst
      simp
    · rw [List.map_cons, List.mem_cons, ih, List.map_cons, List.mem_cons, or_left_comm]

theorem mem_names_entriesAfter {other : String} :
    other ∈ (entriesAfter saved entries).map Prod.fst ↔
      (∃ r ∈ saved, r.fileName = other) ∨ other ∈ entries.map Prod.fst := by
  induction saved generalizing entries with
  | nil => simp [entriesAfter]
  | cons r saved ih =>
    have hcons : entriesAfter (r :: saved) entries =
      entriesAfter saved (putEntry r.fileName (.file r.bytes) entries) := rfl
    rw [hcons, ih, mem_names_putEntry]
    simp only [List.mem_cons, or_and_right, exists_or, exists_eq_left', or_assoc,
      or_left_comm, eq_comm]

/-- What was not in the way before is not in the way after saves. -/
theorem lookup_entriesAfter_cases (saved : List Report) (entries : List (String × Node))
    (name : String) :
    (∃ bytes, (entriesAfter saved entries).lookup name = some (.file bytes)) ∨
      (entriesAfter saved entries).lookup name = entries.lookup name := by
  rw [lookup_entriesAfter]
  cases saved.reverse.find? (·.fileName == name) with
  | some last => exact .inl ⟨last.bytes, rfl⟩
  | none => exact .inr rfl

theorem Storable.after (h : r.Storable entries) (saved : List Report) :
    r.Storable (entriesAfter saved entries) := by
  refine { h with noLink := fun target => ?_ }
  rcases lookup_entriesAfter_cases saved entries r.fileName with ⟨bytes, hbytes⟩ | hsame
  · rw [hbytes]
    simp
  · rw [hsame]
    exact h.noLink target

/-! ## Histories -/

/-- One more report is saved after those that have been stored. -/
def saveNext (state : List Report × Machine) (r : Report) : List Report × Machine :=
  match r.save.run state.2 with
  | (.ok _, m) => (state.1 ++ [r], m)
  | (.error _, m) => (state.1, m)

/-- Saves reports one after the other. Gives those that have been stored, and the machine then. -/
def saveAll (rs : List Report) (m : Machine) : List Report × Machine :=
  rs.foldl saveNext ([], m)

/-- The reports have been stored, from a disk on and with the entries that it had, and no other
ones. -/
structure Stored (start : Disk) (folder : Path) (entries : List (String × Node))
    (saved : List Report) (m : Machine) : Prop where
  holds : ∃ place, Holds m folder place (entriesAfter saved entries)
  closed : m.disk.closed = start.closed
  names : ∀ r ∈ saved, start.Accepts folder entries r.fileName

variable {start : Disk}

/-- Whether a report can be stored does not depend on what has been stored before. -/
theorem Stored.accepts_iff (h : Stored start folder entries saved m) (r : Report) :
    m.disk.Accepts folder (entriesAfter saved entries) r.fileName ↔
      start.Accepts folder entries r.fileName := by
  have hclosed : m.disk.isClosed (folder.extend [r.fileName]) =
      start.isClosed (folder.extend [r.fileName]) := by
    rw [Disk.isClosed, Disk.isClosed, h.closed]
  rw [Disk.Accepts, hclosed, lookup_entriesAfter]
  cases hfind : saved.reverse.find? (·.fileName == r.fileName) with
  | none => exact Iff.rfl
  | some last =>
    have hname : last.fileName = r.fileName := by simpa using List.find?_some hfind
    have haccepted := h.names last (List.mem_reverse.1 (List.mem_of_find?_eq_some hfind))
    rw [hname] at haccepted
    exact iff_of_true ⟨haccepted.1, haccepted.2.1, rfl⟩ haccepted

/-- All files but one are the same on two disks. -/
def ChangesOnly (names : List String) (d other : Disk) : Prop :=
  ∀ {others bytes}, others ≠ names →
    (other.top.find? others = some (.file bytes) ↔ d.top.find? others = some (.file bytes))

/-- One more save, if the file can be written. -/
theorem Stored.saveNext_of_accepts (h : Stored start folder entries saved m)
    (hr : r.Storable entries) (haccepts : start.Accepts folder entries r.fileName) :
    ∃ m' place, saveNext (saved, m) r = (saved ++ [r], m') ∧
      Stored start folder entries (saved ++ [r]) m' ∧
      Holds m' folder place (entriesAfter (saved ++ [r]) entries) ∧
      ChangesOnly (place ++ [r.fileName]) m.disk m'.disk := by
  obtain ⟨place, hholds⟩ := h.holds
  have hstorable := hr.after saved
  have haccepts' := (h.accepts_iff r).2 haccepts
  have hafter := hholds.withFile hstorable haccepts'
  rw [← entriesAfter_append] at hafter
  refine ⟨_, place, ?_, ⟨⟨place, hafter⟩, h.closed, ?_⟩, hafter, fun hnames => ?_⟩
  · rw [saveNext, save_of_accepts hholds hstorable haccepts']
  · exact List.forall_mem_append.2 ⟨h.names, List.forall_mem_singleton.2 haccepts⟩
  · exact Disk.file_withFile_iff hholds.there (hstorable.exists_file haccepts') hnames

/-- One more save, if the file cannot be written. -/
theorem Stored.saveNext_of_not_accepts (h : Stored start folder entries saved m)
    (hr : r.Storable entries) (haccepts : ¬start.Accepts folder entries r.fileName) :
    saveNext (saved, m) r = (saved, m) := by
  obtain ⟨place, hholds⟩ := h.holds
  obtain ⟨fault, hrun⟩ := save_of_not_accepts hholds (hr.after saved)
    (mt (h.accepts_iff r).1 haccepts)
  rw [saveNext, hrun]

/-- The reports that can be stored. -/
def accepted (start : Disk) (folder : Path) (entries : List (String × Node)) (rs : List Report) :
    List Report :=
  rs.filter fun r => start.Accepts folder entries r.fileName

/-- **Exactly the reports that can be stored are**, in any history. -/
theorem Stored.foldl_saveNext (h : Stored start folder entries saved m) {rs : List Report}
    (hrs : ∀ r ∈ rs, r.Storable entries) :
    ∃ m', rs.foldl saveNext (saved, m) = (saved ++ accepted start folder entries rs, m') ∧
      Stored start folder entries (saved ++ accepted start folder entries rs) m' := by
  induction rs generalizing saved m with
  | nil => exact ⟨m, by simp [accepted], by simpa [accepted] using h⟩
  | cons r rs ih =>
    obtain ⟨hr, hrs⟩ := List.forall_mem_cons.1 hrs
    by_cases haccepts : start.Accepts folder entries r.fileName
    · obtain ⟨m', -, hnext, hstored, -⟩ := h.saveNext_of_accepts hr haccepts
      have haccepted : accepted start folder entries (r :: rs) =
          r :: accepted start folder entries rs := by
        simp [accepted, haccepts]
      rw [List.foldl_cons, hnext, haccepted,
        List.append_cons saved r (accepted start folder entries rs)]
      exact ih hstored hrs
    · have haccepted : accepted start folder entries (r :: rs) =
          accepted start folder entries rs := by
        simp [accepted, haccepts]
      rw [List.foldl_cons, h.saveNext_of_not_accepts hr haccepts, haccepted]
      exact ih h hrs

/-! ## The latest report -/

/-- What has to be found of a project after reports have been stored: of its reports of the greatest
day, the one that was stored last. -/
def IsLatest (p : String) (saved : List Report) : Option Report → Prop
  | none => ∀ s ∈ saved, s.project ≠ p
  | some r => ∃ before after, saved = before ++ r :: after ∧ r.project = p ∧
      (∀ s ∈ before, s.project = p → ¬r.scannedAt.date.Before s.scannedAt.date) ∧
      ∀ s ∈ after, s.project = p → s.scannedAt.date.Before r.scannedAt.date

/-- No other report is the latest one. -/
theorem IsLatest.unique {a b : Option Report} (ha : IsLatest p saved a) (hb : IsLatest p saved b) :
    a = b := by
  cases a with
  | none =>
    cases b with
    | none => rfl
    | some r =>
      obtain ⟨before, after, rfl, hr, -⟩ := hb
      exact absurd hr (ha r (by simp))
  | some r =>
    obtain ⟨before, after, hsaved, hr, hbefore, hafter⟩ := ha
    cases b with
    | none => exact absurd hr (hb r (by simp [hsaved]))
    | some s =>
      obtain ⟨before', after', hsaved', hs, hbefore', hafter'⟩ := hb
      rw [hsaved] at hsaved'
      -- Where the two stand at different places, the later one was saved after the other and is not
      -- older, which the other one's place denies.
      rcases List.append_eq_append_iff.1 hsaved' with ⟨mid, hmid, hrest⟩ | ⟨mid, hmid, hrest⟩
      · cases mid with
        | nil => exact congrArg some (List.cons.inj hrest).1
        | cons t mid =>
          obtain ⟨rfl, rfl⟩ := List.cons.inj hrest
          subst hmid
          exact absurd (hafter s (by simp) hs) (hbefore' r (by simp) hr)
      · cases mid with
        | nil => exact congrArg some (List.cons.inj hrest).1.symm
        | cons t mid =>
          obtain ⟨rfl, rfl⟩ := List.cons.inj hrest
          subst hmid
          exact absurd (hafter' r (by simp) hr) (hbefore s (by simp) hs)

/-- The report in a file with the bytes of one. -/
theorem load?_of_readBytes {path : Path} (h : d.readBytes path = .ok r.bytes) :
    load? d path = .ok (ofText (Text.plainNewlines r.render.toList)).toOption := by
  have hread : d.readText path = .ok (Text.plainNewlines r.render.toList) := by
    rw [Disk.readText, Disk.readExact, h]
    simp [bytes, Text.Utf8.decode?_encode, Except.map, bind, Except.bind, pure, Except.pure]
  rw [load?, hread]

/-- The report in the file that is under a name. -/
theorem load?_entry (hholds : Holds m folder place entries) (hname : IsEntryName name)
    (haccepts : m.disk.Accepts folder entries name)
    (hlookup : entries.lookup name = some (.file r.bytes)) :
    load? m.disk (folder.extend [name]) =
      .ok (ofText (Text.plainNewlines r.render.toList)).toOption :=
  load?_of_readBytes (Disk.readBytes_of_file hholds.there hname haccepts hlookup)

/-- A report without numbers that are too long is found in its file. -/
theorem ofText_plainNewlines (hvalid : r.Valid) (hwritable : r.Writable) :
    ofText (Text.plainNewlines r.render.toList) = .ok r := by
  have hclean : Json.Clean r.render.toList := by
    rw [toList_render]
    exact (faithful_toJson hvalid hwritable).clean _ _
  rw [hclean.plainNewlines_eq]
  exact ofText_render hvalid hwritable

theorem Holds.list_eq (hholds : Holds m folder place entries)
    (hclosed : m.disk.isClosed folder = false) : m.disk.list folder = .ok entries := by
  rw [Disk.list, hclosed, if_neg Bool.false_ne_true]
  exact Disk.entries_eq_ok_iff.2 ⟨place, hholds.there⟩

theorem latest?_eq_none (hholds : Holds m folder place entries)
    (hclosed : m.disk.isClosed folder = false)
    (hname : latestName? p (entries.map Prod.fst) = none) : latest? m p = .ok none := by
  have hfolder := Disk.isFolder?_of_locate hholds.there
  simp [latest?, hholds.path, hfolder, hholds.list_eq hclosed, hname, bind, Except.bind, pure,
    Except.pure]

theorem latest?_eq_load? (hholds : Holds m folder place entries)
    (hclosed : m.disk.isClosed folder = false)
    (hname : latestName? p (entries.map Prod.fst) = some name) :
    latest? m p = load? m.disk (folder.extend [name]) := by
  have hfolder := Disk.isFolder?_of_locate hholds.there
  simp [latest?, hholds.path, hfolder, hholds.list_eq hclosed, hname, bind, Except.bind]

/-- The greatest name of a project is that of its latest report, which is under that name. -/
theorem exists_latest_of_latestName?
    (hnone : ∀ name ∈ entries.map Prod.fst, isFileNameOf p name = false)
    (hname : latestName? p ((entriesAfter saved entries).map Prod.fst) = some name) :
    ∃ r ∈ saved, r.fileName = name ∧ IsLatest p saved (some r) ∧
      (entriesAfter saved entries).lookup name = some (.file r.bytes) := by
  obtain ⟨hmem, hof, hgreatest⟩ := latestName?_eq_some hname
  rcases mem_names_entriesAfter.1 hmem with ⟨s, hs, hsname⟩ | hold
  · have hfound : (saved.reverse.find? (·.fileName == name)).isSome = true :=
      List.find?_isSome.2 ⟨s, List.mem_reverse.2 hs, by simpa using hsname⟩
    obtain ⟨r, hfind⟩ := Option.isSome_iff_exists.1 hfound
    obtain ⟨hrname, later, earlier, hreverse, hlater⟩ := List.find?_eq_some_iff_append.1 hfind
    have hrname : r.fileName = name := by simpa using hrname
    have hsaved : saved = earlier.reverse ++ r :: later.reverse := by
      rw [← List.reverse_reverse saved, hreverse]
      simp
    have hproject : r.project = p := (isFileNameOf_fileName r p).1 (hrname ▸ hof)
    -- Every report of the project has a name that is no greater.
    have hle {s : Report} (hs : s ∈ saved) (hsp : s.project = p) : s.fileName ≤ r.fileName := by
      rw [hrname]
      exact hgreatest _ (mem_names_entriesAfter.2 (.inl ⟨s, hs, rfl⟩))
        ((isFileNameOf_fileName s p).2 hsp)
    refine ⟨r, by simp [hsaved], hrname, ⟨earlier.reverse, later.reverse, hsaved, hproject, ?_, ?_⟩,
      ?_⟩
    · intro s hs hsp
      exact (fileName_le_iff (hsp.trans hproject.symm)).1 (hle (by simp [hsaved, hs]) hsp)
    · intro s hs hsp
      have hother : s.fileName ≠ name := by simpa using hlater s (List.mem_reverse.1 hs)
      refine Decidable.byContradiction fun hbefore => hother ?_
      have hge := (fileName_le_iff (hproject.trans hsp.symm)).2 hbefore
      have hsle := hle (by simp [hsaved, List.mem_reverse.1 hs]) hsp
      exact (String.le_antisymm hsle hge).trans hrname
    · rw [lookup_entriesAfter, hfind]
      rfl
  · exact absurd hof (by simp [hnone name hold])

/-- **What is found after reports have been stored:** nothing of a project that none of them is of,
or else what is in the file of its latest report. -/
theorem Stored.latest? (h : Stored start folder entries saved m)
    (hopen : start.isClosed folder = false)
    (hnone : ∀ name ∈ entries.map Prod.fst, isFileNameOf p name = false)
    (hsaved : ∀ r ∈ saved, r.Storable entries) :
    (Report.latest? m p = .ok none ∧ IsLatest p saved none) ∨
    ∃ r ∈ saved, IsLatest p saved (some r) ∧ Report.latest? m p =
      .ok (ofText (Text.plainNewlines r.render.toList)).toOption := by
  obtain ⟨place, hholds⟩ := h.holds
  have hclosed : m.disk.isClosed folder = false := by
    rw [Disk.isClosed, h.closed]
    exact hopen
  cases hname : latestName? p ((entriesAfter saved entries).map Prod.fst) with
  | none =>
    refine .inl ⟨latest?_eq_none hholds hclosed hname, fun s hs hsp => ?_⟩
    have hmem : s.fileName ∈ (entriesAfter saved entries).map Prod.fst :=
      mem_names_entriesAfter.2 (.inl ⟨s, hs, rfl⟩)
    have hnot := latestName?_eq_none.1 hname s.fileName hmem
    rw [(isFileNameOf_fileName s p).2 hsp] at hnot
    cases hnot
  | some name =>
    obtain ⟨r, hr, rfl, hlatest, hlookup⟩ := exists_latest_of_latestName? hnone hname
    refine .inr ⟨r, hr, hlatest, ?_⟩
    rw [latest?_eq_load? hholds hclosed hname]
    exact load?_entry hholds (hsaved r hr).isEntryName ((h.accepts_iff r).2 (h.names r hr)) hlookup

/-! ## From the first save on -/

/-- The folder is there with entries; or it is missing, and has these entries when it is made. -/
def Provides (d : Disk) (folder : Path) (entries : List (String × Node)) : Prop :=
  d.entries folder = .ok entries ∨
    d.node? folder = .ok none ∧
      ∃ made, d.makeFolders folder = (.ok (), made) ∧ made.entries folder = .ok entries

/-- Before the first save the folder can be made, and its files are those that were there. -/
theorem Provides.exists_made (h : Provides d folder entries) :
    ∃ made place, d.makeFolders folder = (.ok (), made) ∧ Disk.SameFiles d made ∧
      made.locate folder .target = .ok (.found place (.folder entries)) := by
  rcases h with hthere | ⟨-, made, hmake, hentries⟩
  · obtain ⟨place, hlocate⟩ := Disk.entries_eq_ok_iff.1 hthere
    exact ⟨d, place, Disk.makeFolders_of_folder hlocate, .refl d, hlocate⟩
  · obtain ⟨place, hlocate⟩ := Disk.entries_eq_ok_iff.1 hentries
    have hsame := Disk.sameFiles_makeFoldersAt folder.anchor Disk.folderLimit folder.names.reverse d
    rw [← Disk.makeFolders, hmake] at hsame
    exact ⟨made, place, hmake, hsame, hlocate⟩

/-- The first save makes the folder. -/
theorem saveNext_made {made : Disk} (hfolder : m.reportsFolder = .ok folder)
    (hmake : m.disk.makeFolders folder = (.ok (), made))
    (hlocate : made.locate folder .target = .ok (.found place (.folder entries)))
    (hvalid : r.Valid) : saveNext (saved, m) r = saveNext (saved, { m with disk := made }) r := by
  have hagain : made.makeFolders folder = (.ok (), made) := Disk.makeFolders_of_folder hlocate
  have hsame : r.save.run m = r.save.run { m with disk := made } := by
    cases hwrite : made.writeBytes (folder.below r.fileName) r.bytes with
    | ok d =>
      rw [save_run_ok hfolder hmake hvalid hwrite,
        save_run_ok (m := { m with disk := made }) hfolder hagain hvalid hwrite]
    | error fault =>
      rw [save_run_error hfolder hmake hvalid hwrite,
        save_run_error (m := { m with disk := made }) hfolder hagain hvalid hwrite]
  rw [saveNext, saveNext, hsame]

theorem saveAll_made {made : Disk} (hfolder : m.reportsFolder = .ok folder)
    (hmake : m.disk.makeFolders folder = (.ok (), made))
    (hlocate : made.locate folder .target = .ok (.found place (.folder entries)))
    {rs : List Report} (hrs : ∀ r ∈ rs, r.Valid) (hne : rs ≠ []) :
    saveAll rs m = saveAll rs { m with disk := made } := by
  cases rs with
  | nil => exact absurd rfl hne
  | cons r rs =>
    rw [saveAll, List.foldl_cons, saveNext_made hfolder hmake hlocate (hrs r List.mem_cons_self)]
    rfl

/-- Before the first save there is no report of a project whose names are not there. -/
theorem latest?_of_provides (hfolder : m.reportsFolder = .ok folder)
    (hopen : m.disk.isClosed folder = false) (hstart : Provides m.disk folder entries)
    (hnone : ∀ name ∈ entries.map Prod.fst, isFileNameOf p name = false) :
    latest? m p = .ok none := by
  rcases hstart with hthere | ⟨hmissing, -⟩
  · obtain ⟨place, hlocate⟩ := Disk.entries_eq_ok_iff.1 hthere
    exact latest?_eq_none ⟨hfolder, hlocate⟩ hopen (latestName?_eq_none.2 hnone)
  · simp [latest?, hfolder, Disk.isFolder?, hmissing, bind, Except.bind, Except.map, pure,
      Except.pure]

/-- One more save changes no file but that of its report. -/
theorem Stored.exists_changesOnly (h : Stored start folder entries saved m)
    (hr : r.Storable entries) : ∃ place entries',
      (saveNext (saved, m) r).2.disk.locate folder .target = .ok (.found place (.folder entries')) ∧
      ChangesOnly (place ++ [r.fileName]) m.disk (saveNext (saved, m) r).2.disk := by
  by_cases haccepts : start.Accepts folder entries r.fileName
  · obtain ⟨m', place, hnext, -, hholds, hchanges⟩ := h.saveNext_of_accepts hr haccepts
    rw [hnext]
    exact ⟨place, _, hholds.there, hchanges⟩
  · obtain ⟨place, hholds⟩ := h.holds
    rw [h.saveNext_of_not_accepts hr haccepts]
    exact ⟨place, _, hholds.there, fun _ => Iff.rfl⟩

/-- The machine with the folder of its reports made. -/
theorem Provides.exists_stored (hfolder : m.reportsFolder = .ok folder)
    (hstart : Provides m.disk folder entries) :
    ∃ made, Disk.SameFiles m.disk made ∧
      Stored m.disk folder entries [] { m with disk := made } ∧
      ∀ {rs : List Report}, (∀ r ∈ rs, r.Storable entries) → rs ≠ [] →
        saveAll rs m = saveAll rs { m with disk := made } := by
  obtain ⟨made, place, hmake, hsame, hlocate⟩ := hstart.exists_made
  refine ⟨made, hsame, ⟨⟨place, hfolder, hlocate⟩, hsame.closed, by simp⟩, fun hrs hne => ?_⟩
  exact saveAll_made hfolder hmake hlocate (fun r hr => (hrs r hr).valid) hne

theorem IsLatest.project_eq (h : IsLatest p saved (some r)) : r.project = p := by
  obtain ⟨-, -, -, hproject, -⟩ := h
  exact hproject

/-- **Any history stores the reports that can be stored.** -/
theorem exists_saveAll {rs : List Report} (hfolder : m.reportsFolder = .ok folder)
    (hstart : Provides m.disk folder entries) (hrs : ∀ r ∈ rs, r.Storable entries) :
    ∃ m', saveAll rs m = (accepted m.disk folder entries rs, m') ∧
      (rs = [] ∧ m' = m ∨ Stored m.disk folder entries (accepted m.disk folder entries rs) m') := by
  by_cases hne : rs = []
  · subst hne
    exact ⟨m, rfl, .inl ⟨rfl, rfl⟩⟩
  · obtain ⟨made, -, hstored, hmade⟩ := hstart.exists_stored hfolder
    obtain ⟨m', hrun, hstored'⟩ := hstored.foldl_saveNext hrs
    rw [List.nil_append] at hrun hstored'
    exact ⟨m', (hmade hrs hne).trans hrun, .inr hstored'⟩

theorem mem_of_mem_accepted {rs : List Report} (h : r ∈ accepted d folder entries rs) : r ∈ rs :=
  (List.mem_filter.1 h).1

/-- The latest report of a project is found after any history. -/
theorem exists_latest {rs : List Report} (hfolder : m.reportsFolder = .ok folder)
    (hopen : m.disk.isClosed folder = false) (hstart : Provides m.disk folder entries)
    (hnone : ∀ name ∈ entries.map Prod.fst, isFileNameOf p name = false)
    (hrs : ∀ r ∈ rs, r.Storable entries ∧ (r.project = p → r.Writable)) :
    ∃ answer, latest? (saveAll rs m).2 p = .ok answer ∧ IsLatest p (saveAll rs m).1 answer := by
  have hstorable : ∀ r ∈ rs, r.Storable entries := fun r hr => (hrs r hr).1
  obtain ⟨m', hrun, ⟨rfl, rfl⟩ | hstored⟩ := exists_saveAll hfolder hstart hstorable
  · exact ⟨none, latest?_of_provides hfolder hopen hstart hnone, fun _ h => nomatch h⟩
  · rw [hrun]
    rcases hstored.latest? hopen hnone fun r hr => hstorable r (mem_of_mem_accepted hr) with
      ⟨hread, hlatest⟩ | ⟨r, hr, hlatest, hread⟩
    · exact ⟨none, hread, hlatest⟩
    · obtain ⟨hr, hwritable⟩ := hrs r (mem_of_mem_accepted hr)
      refine ⟨some r, ?_, hlatest⟩
      rw [hread, ofText_plainNewlines hr.valid (hwritable hlatest.project_eq)]
      rfl

/-- No save of a history changes a file but that of its report. -/
theorem saveAll_changesOnly {before : List Report} (hfolder : m.reportsFolder = .ok folder)
    (hstart : Provides m.disk folder entries) (hbefore : ∀ s ∈ before, s.Storable entries)
    (hr : r.Storable entries) : ∃ place entries',
      (saveAll (before ++ [r]) m).2.disk.locate folder .target =
        .ok (.found place (.folder entries')) ∧
      ChangesOnly (place ++ [r.fileName]) (saveAll before m).2.disk
        (saveAll (before ++ [r]) m).2.disk := by
  obtain ⟨made, hsame, hstored, hmade⟩ := hstart.exists_stored hfolder
  have hall : ∀ s ∈ before ++ [r], s.Storable entries :=
    List.forall_mem_append.2 ⟨hbefore, List.forall_mem_singleton.2 hr⟩
  obtain ⟨m', hrun, hstored'⟩ := hstored.foldl_saveNext hbefore
  rw [List.nil_append] at hrun hstored'
  have hnext : saveAll (before ++ [r]) m =
      saveNext (accepted m.disk folder entries before, m') r := by
    rw [hmade hall (by simp), saveAll, List.foldl_append, hrun]
    rfl
  obtain ⟨place, entries', hlocate, hchanges⟩ := hstored'.exists_changesOnly hr
  rw [hnext]
  refine ⟨place, entries', hlocate, fun hnames => (hchanges hnames).trans ?_⟩
  by_cases hne : before = []
  · subst hne
    obtain rfl : { m with disk := made } = m' := congrArg Prod.snd hrun
    exact hsame.files
  · rw [hmade hbefore hne, saveAll, hrun]

/-- **The store gives back the right report after any history.** Let the folder of the reports be
there, or such that it can be made, and be without names of reports of a project. After any saves,
those reports have been stored whose files can be written; the report that is found is the latest
one of the project among these, and nothing if there is none; and no save has changed a file but
that of its report. -/
theorem latest?_saveAll {rs : List Report} (hfolder : m.reportsFolder = .ok folder)
    (hopen : m.disk.isClosed folder = false) (hstart : Provides m.disk folder entries)
    (hnone : ∀ name ∈ entries.map Prod.fst, isFileNameOf p name = false)
    (hrs : ∀ r ∈ rs, r.Storable entries ∧ (r.project = p → r.Writable)) :
    (saveAll rs m).1 = accepted m.disk folder entries rs ∧
    (∃ answer, latest? (saveAll rs m).2 p = .ok answer ∧
      ∀ other, IsLatest p (saveAll rs m).1 other ↔ other = answer) ∧
    ∀ before r after, rs = before ++ r :: after → ∃ place entries',
      (saveAll (before ++ [r]) m).2.disk.locate folder .target =
        .ok (.found place (.folder entries')) ∧
      ChangesOnly (place ++ [r.fileName]) (saveAll before m).2.disk
        (saveAll (before ++ [r]) m).2.disk := by
  have hstorable : ∀ r ∈ rs, r.Storable entries := fun r hr => (hrs r hr).1
  obtain ⟨m', hrun, -⟩ := exists_saveAll hfolder hstart hstorable
  obtain ⟨answer, hread, hlatest⟩ := exists_latest hfolder hopen hstart hnone hrs
  refine ⟨congrArg Prod.fst hrun,
    ⟨answer, hread, fun other => ⟨fun h => h.unique hlatest, fun h => h ▸ hlatest⟩⟩, ?_⟩
  rintro before r after rfl
  exact saveAll_changesOnly hfolder hstart (fun s hs => hstorable s (by simp [hs]))
    (hstorable r (by simp))

/-- A report of a project on a day of March, with a duration. -/
def specimen (project : String) (day : Fin 31) (duration : Nat) : Report where
  project := project
  projectPath := "/work/" ++ project
  scannedAt := ⟨⟨2026, 3, day + 1, by revert day; decide⟩, ⟨0, by decide⟩, none⟩
  grade := .a
  points := 100
  durationMs := duration

/-- A machine without files, but with entries in the folder of the reports if it is there. -/
def emptyMachine (entries : Option (List (String × Node))) (closed : List String) : Machine where
  disk :=
    { top := .folder (entries.toList.map fun es => ("reports", .folder es)), here := [], closed }
  environment := [("SECUREDEV_HOME", "/")]
  clock := ⟨0, true⟩
  readings := []

theorem durationMs_specimen (project : String) (day : Fin 31) (duration : Nat) :
    (specimen project day duration).durationMs = duration := rfl

theorem valid_specimen (project : String) (day : Fin 31) (duration : Nat) :
    (specimen project day duration).Valid :=
  ⟨Nat.le_refl 100, by simp [specimen]⟩

theorem writable_specimen (project : String) (day : Fin 31) :
    (specimen project day 0).Writable :=
  have hzero : Text.Decimal.isWritable 0 = true := Check.isWritable_of_small (by decide)
  ⟨by simp [specimen], fun severity => by cases severity <;> exact hzero, hzero⟩

/-- Two days of a project and a project whose name begins in the same way, stored in a folder that
is made for them. -/
theorem latest?_saveAll_specimens :
    let rs := [specimen "api" 4 0, specimen "api" 2 0, specimen "api-2026-03-31" 6 0]
    let m := emptyMachine none []
    (saveAll rs m).1 = rs ∧ latest? (saveAll rs m).2 "api" = .ok (some (specimen "api" 4 0)) := by
  intro rs m
  have hmake : m.disk.makeFolder ⟨.root, ["reports"]⟩ = .ok (emptyMachine (some []) []).disk := rfl
  have hstart : Provides m.disk ⟨.root, ["reports"]⟩ [] :=
    .inr ⟨rfl, _, Disk.makeFolders_of_makeFolder hmake (by simp), rfl⟩
  have hrs : ∀ r ∈ rs, r.Storable [] ∧ (r.project = "api" → r.Writable) := by
    simp only [rs, List.forall_mem_cons, List.not_mem_nil, false_implies, implies_true, and_true]
    exact ⟨⟨⟨valid_specimen .., by decide, by decide, by simp⟩, fun _ => writable_specimen ..⟩,
      ⟨⟨valid_specimen .., by decide, by decide, by simp⟩, fun _ => writable_specimen ..⟩,
      ⟨⟨valid_specimen .., by decide, by decide, by simp⟩, fun _ => writable_specimen ..⟩⟩
  have hfolder : m.reportsFolder = .ok ⟨.root, ["reports"]⟩ := rfl
  obtain ⟨hsaved, ⟨answer, hread, hlatest⟩, -⟩ :=
    latest?_saveAll hfolder rfl hstart (by simp) hrs
  have haccepted : accepted m.disk ⟨.root, ["reports"]⟩ [] rs = rs :=
    List.filter_eq_self.2 (by decide +kernel)
  rw [haccepted] at hsaved
  have hfirst : IsLatest "api" rs (some (specimen "api" 4 0)) :=
    ⟨[], rs.tail, rfl, rfl, by simp, by decide⟩
  rw [hsaved] at hlatest
  exact ⟨hsaved, by rw [hread, ← (hlatest _).1 hfirst]⟩

/-- A machine with a link under the name of a report, and with what the link leads to. -/
def linkedMachine (files : List (String × Node)) : Machine :=
  emptyMachine (some (("api-gateway-2026-03-01.json", .link "api-2026-03-01.json") :: files)) []

/-- A report is saved through a link. -/
theorem saveAll_linkedMachine (hvalid : r.Valid)
    (hname : r.fileName = "api-gateway-2026-03-01.json") : saveAll [r] (linkedMachine []) =
      ([r], linkedMachine [("api-2026-03-01.json", .file r.bytes)]) := by
  have hlocate : (linkedMachine []).disk.locate ⟨.root, ["reports"]⟩ .target =
      .ok (.found ["reports"]
        (.folder [("api-gateway-2026-03-01.json", .link "api-2026-03-01.json")])) := rfl
  have hwrite (bytes : List UInt8) : (linkedMachine []).disk.writeBytes
      (Path.below ⟨.root, ["reports"]⟩ "api-gateway-2026-03-01.json") bytes =
        .ok (linkedMachine [("api-2026-03-01.json", .file bytes)]).disk := rfl
  have hrun := save_run_ok rfl (Disk.makeFolders_of_folder hlocate) hvalid (hname ▸ hwrite r.bytes)
  rw [saveAll, List.foldl_cons, List.foldl_nil, saveNext, hrun]
  rfl

theorem latest?_linkedMachine (hvalid : r.Valid) (hwritable : r.Writable) :
    latest? (linkedMachine [("api-2026-03-01.json", .file r.bytes)]) "api" = .ok (some r) := by
  have hholds : Holds (linkedMachine [("api-2026-03-01.json", .file r.bytes)])
      ⟨.root, ["reports"]⟩ ["reports"]
      [("api-gateway-2026-03-01.json", .link "api-2026-03-01.json"),
        ("api-2026-03-01.json", .file r.bytes)] := ⟨rfl, rfl⟩
  have hname : latestName? "api" ["api-gateway-2026-03-01.json", "api-2026-03-01.json"] =
      some "api-2026-03-01.json" := by decide
  have hentry : IsEntryName "api-2026-03-01.json" := by
    refine ⟨⟨?_, ?_, ?_⟩, ?_, ?_⟩ <;> decide
  rw [latest?_eq_load? hholds rfl hname, load?_entry hholds hentry ⟨rfl, by decide, rfl⟩ rfl,
    ofText_plainNewlines hvalid hwritable]
  rfl

/-- What is found of a report with a number that is too long is not that report. -/
theorem latest?_ne_of_not_writable (hfolder : m.reportsFolder = .ok folder)
    (hopen : m.disk.isClosed folder = false) (hstart : Provides m.disk folder entries)
    (hnone : ∀ name ∈ entries.map Prod.fst, isFileNameOf r.project name = false)
    (hr : r.Storable entries) (hwritable : ¬r.Writable) :
    latest? (saveAll [r] m).2 r.project ≠ .ok (some r) := by
  intro hread
  have hrs : ∀ s ∈ [r], s.Storable entries := List.forall_mem_singleton.2 hr
  obtain ⟨m', hrun, ⟨⟨⟩, -⟩ | hstored⟩ := exists_saveAll hfolder hstart hrs
  rw [hrun] at hread
  rcases hstored.latest? hopen hnone fun s hs => hrs s (mem_of_mem_accepted hs) with
    ⟨hnothing, -⟩ | ⟨s, -, -, hfound⟩
  · rw [hread] at hnothing
    cases hnothing
  · rw [hread] at hfound
    cases htext : ofText (Text.plainNewlines s.render.toList) with
    | error problems => rw [htext] at hfound; cases hfound
    | ok found =>
      rw [htext] at hfound
      obtain rfl : r = found := Option.some.inj (Except.ok.inj hfound)
      exact hwritable (valid_of_ofText htext).2

/-- Three ways in which something else is found: a number is too long, a link is under the name of a
report, or the folder cannot be listed. -/
theorem latest?_saveAll_exceptions :
    (∃ r, r.Valid ∧ (saveAll [r] (emptyMachine (some []) [])).1 = [r] ∧
      latest? (saveAll [r] (emptyMachine (some []) [])).2 r.project ≠ .ok (some r)) ∧
    (∃ r, r.project = "api-gateway" ∧
      latest? (saveAll [r] (linkedMachine [])).2 "api" = .ok (some r)) ∧
    latest? (emptyMachine (some []) ["/reports"]) "api" = .error .denied := by
  refine ⟨?_, ?_, rfl⟩
  · have hfolder : (emptyMachine (some []) []).reportsFolder = .ok ⟨.root, ["reports"]⟩ := rfl
    have hstart : Provides (emptyMachine (some []) []).disk ⟨.root, ["reports"]⟩ [] := .inl rfl
    have hlong : ∃ r : Report, r.Storable [] ∧ ¬r.Writable ∧
        accepted (emptyMachine (some []) []).disk ⟨.root, ["reports"]⟩ [] [r] = [r] := by
      refine ⟨specimen "api" 0 Text.Decimal.bound, ?_, fun h => ?_, ?_⟩
      · exact ⟨valid_specimen .., by decide, by decide, by simp⟩
      · have hwritable := Text.Decimal.isWritable_natCast.1 h.duration
        rw [durationMs_specimen] at hwritable
        exact Nat.lt_irrefl Text.Decimal.bound hwritable
      · exact List.filter_eq_self.2 (by decide +kernel)
    obtain ⟨r, hr, hlong, haccepted⟩ := hlong
    obtain ⟨m', hrun, -⟩ := exists_saveAll hfolder hstart (List.forall_mem_singleton.2 hr)
    exact ⟨r, hr.valid, (congrArg Prod.fst hrun).trans haccepted,
      latest?_ne_of_not_writable hfolder rfl hstart (by simp) hr hlong⟩
  · refine ⟨specimen "api-gateway" 0 0, rfl, ?_⟩
    rw [saveAll_linkedMachine (valid_specimen ..) (by decide)]
    exact latest?_linkedMachine (valid_specimen ..) (writable_specimen ..)

end Report

end WorkspaceAudit
