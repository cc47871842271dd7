import WorkspaceAudit.Proofs.Report.Store
import WorkspaceAudit.Proofs.Workspace.Failing

/-!
# Stored reports that cannot be used

A file with the name of a report may be closed, hold no text or hold no report. Then it should count
as absent. But the search for the latest report looks at one file only, the one with the greatest
name.

- `Report.load?_eq_error_iff`: only bytes that are no text make the look into a file a fault.
- `Report.usable?`: the report under a name, if there is one.
- `Report.Tidied`: a machine is another one without the unusable reports;
  `Report.tidied_withoutUnusable`: so it is after their files have been taken out of the folder.
- `Report.latest?_eq_tidied_iff`: exactly when the search finds what it would find then.
-/

namespace WorkspaceAudit

open Disk

namespace Disk

variable {d : Disk} {p : Path}

/-- Whatever keeps a file from being read is a fault of the system. -/
theorem readBytes_error {fault : Fault} (hnul : hasNul p = false)
    (h : d.readBytes p = .error fault) : fault.ofSystem = true := by
  unfold readBytes at h
  split at h
  · obtain rfl := Except.error.inj h
    rfl
  · split at h
    · cases h
    · obtain rfl := Except.error.inj h
      rfl
    · obtain rfl := Except.error.inj h
      rfl
    · rename_i hlocate
      obtain rfl := Except.error.inj h
      exact locate_error hlocate hnul

end Disk

namespace Report

variable {m other : Machine} {d : Disk} {folder path : Path} {place : List String}
  {entries : List (String × Node)} {name p : String} {r : Report} {fault : Fault}

/-! ## One file -/

/-- What comes of a look into a file. -/
theorem load?_cases (d : Disk) (hnul : hasNul path = false) :
    (d.Undecodable path ∧ load? d path = .error .undecodable) ∨
      (¬ d.Undecodable path ∧ ∃ answer, load? d path = .ok answer) := by
  cases hbytes : d.readBytes path with
  | error fault =>
    have hsystem := readBytes_error hnul hbytes
    have htext : d.readText path = .error fault := by
      simp [readText, readExact, hbytes, bind, Except.bind, Except.map]
    refine .inr ⟨?_, none, ?_⟩
    · rintro ⟨bytes, hread, -⟩
      rw [hbytes] at hread
      cases hread
    · simp [load?, htext, hsystem]
  | ok bytes =>
    cases hdecode : Text.Utf8.decode? bytes with
    | none =>
      have hundecodable : d.Undecodable path := ⟨bytes, hbytes, hdecode⟩
      refine .inl ⟨hundecodable, ?_⟩
      rw [load?, hundecodable.readText_eq]
      rfl
    | some s =>
      have hreads : d.Reads path (Text.plainNewlines s) := ⟨bytes, hbytes, s, hdecode, rfl⟩
      refine .inr ⟨?_, (ofText (Text.plainNewlines s)).toOption, ?_⟩
      · rintro ⟨others, hread, hnone⟩
        obtain rfl := Except.ok.inj (hbytes.symm.trans hread)
        rw [hdecode] at hnone
        cases hnone
      · rw [load?, hreads.readText_eq]

/-- **Only bytes that are no text make the look into a file a fault.** -/
theorem load?_eq_error_iff (hnul : hasNul path = false) :
    load? d path = .error fault ↔ fault = .undecodable ∧ d.Undecodable path := by
  rcases load?_cases d hnul with ⟨hundecodable, hload⟩ | ⟨hdecodable, answer, hload⟩
  · simp [hload, hundecodable, eq_comm]
  · simp [hload, hdecodable]

/-- The report under a name in a folder, if it is usable: its file can be read, holds text, and the
text is that of a report. -/
def usable? (d : Disk) (folder : Path) (name : String) : Option Report :=
  match load? d (folder.extend [name]) with
  | .ok answer => answer
  | .error _ => none

theorem usable?_eq_some_iff :
    usable? d folder name = some r ↔ load? d (folder.extend [name]) = .ok (some r) := by
  unfold usable?
  cases load? d (folder.extend [name]) <;> simp

/-- What has been stored is usable. -/
theorem usable?_of_bytes (hholds : Holds m folder place entries) (hname : IsEntryName name)
    (haccepts : m.disk.Accepts folder entries name)
    (hlookup : entries.lookup name = some (.file r.bytes)) (hvalid : r.Valid)
    (hwritable : r.Writable) : usable? m.disk folder name = some r := by
  rw [usable?_eq_some_iff, load?_entry hholds hname haccepts hlookup,
    ofText_plainNewlines hvalid hwritable]
  rfl

/-! ## The folder of the reports -/

theorem Holds.of_list (hfolder : m.reportsFolder = .ok folder)
    (hlist : m.disk.list folder = .ok entries) :
    m.disk.isClosed folder = false ∧ ∃ place, Holds m folder place entries := by
  unfold Disk.list at hlist
  split at hlist
  · cases hlist
  · rename_i hopen
    obtain ⟨place, hlocate⟩ := Disk.entries_eq_ok_iff.1 hlist
    exact ⟨Bool.eq_false_iff.2 hopen, place, hfolder, hlocate⟩

/-- **The search for the latest report** is a look into the file with the greatest name. -/
theorem latest?_of_list (hfolder : m.reportsFolder = .ok folder)
    (hlist : m.disk.list folder = .ok entries) (p : String) :
    (latestName? p (entries.map Prod.fst) = none ∧ latest? m p = .ok none) ∨
      ∃ name, latestName? p (entries.map Prod.fst) = some name ∧
        latest? m p = load? m.disk (folder.extend [name]) := by
  obtain ⟨hopen, place, hholds⟩ := Holds.of_list hfolder hlist
  cases hname : latestName? p (entries.map Prod.fst) with
  | none => exact .inl ⟨rfl, latest?_eq_none hholds hopen hname⟩
  | some name => exact .inr ⟨name, rfl, latest?_eq_load? hholds hopen hname⟩

/-- The name is one of a report of some project. -/
def isReportName (name : String) : Bool :=
  isDayEnding (name.toList.drop (name.toList.length - 16))

theorem isReportName_of_isFileNameOf (h : isFileNameOf p name = true) :
    isReportName name = true := by
  obtain ⟨-, hending⟩ := Bool.and_eq_true_iff.1 h
  have hlength := length_of_isDayEnding hending
  have hproject : name.toList.length - 16 = p.length := by
    rw [List.length_drop] at hlength
    omega
  rw [isReportName, hproject]
  exact hending

/-- The entry stays when the unusable reports are taken away. -/
def stays (d : Disk) (folder : Path) (name : String) : Bool :=
  !isReportName name || (usable? d folder name).isSome

theorem stays_iff (h : isReportName name = true) :
    stays d folder name = true ↔ ∃ r, usable? d folder name = some r := by
  rw [stays, h, Bool.not_true, Bool.false_or, Option.isSome_iff_exists]

/-- A machine is another one without the unusable reports: those reports are in its folder that were
usable, and they are as they were. -/
structure Tidied (folder : Path) (names : List String) (m other : Machine) : Prop where
  path : other.reportsFolder = .ok folder
  listed : ∃ kept, other.disk.list folder = .ok kept ∧ ∀ name, isReportName name = true →
    (name ∈ kept.map Prod.fst ↔ name ∈ names ∧ ∃ r, usable? m.disk folder name = some r)
  same : ∀ name ∈ names, isReportName name = true → ∀ r, usable? m.disk folder name = some r →
    usable? other.disk folder name = some r

/-- The answer is the usable report of a project with the greatest name, or there is none. -/
def IsNewestUsable (d : Disk) (folder : Path) (names : List String) (p : String) :
    Option Report → Prop
  | none => ∀ name ∈ names, isFileNameOf p name = true → usable? d folder name = none
  | some r => ∃ name ∈ names, isFileNameOf p name = true ∧ usable? d folder name = some r ∧
      ∀ other ∈ names, isFileNameOf p other = true → (usable? d folder other).isSome = true →
        other ≤ name

/-! ## Without the reports that cannot be used -/

variable {names : List String} {answer : Option Report}

theorem IsNewestUsable.eq_none_iff (h : IsNewestUsable d folder names p answer) :
    answer = none ↔
      ∀ name ∈ names, isFileNameOf p name = true → usable? d folder name = none := by
  cases answer with
  | none => exact iff_of_true rfl h
  | some r =>
    obtain ⟨name, hmem, hof, hr, -⟩ := h
    refine iff_of_false (by simp) fun hall => ?_
    rw [hall name hmem hof] at hr
    cases hr

/-- A usable report whose name is the greatest of the project is the newest one. -/
theorem IsNewestUsable.eq_some (h : IsNewestUsable d folder names p answer)
    (hname : latestName? p names = some name) (hr : usable? d folder name = some r) :
    answer = some r := by
  obtain ⟨hmem, hof, hgreatest⟩ := latestName?_eq_some hname
  cases answer with
  | none =>
    rw [h name hmem hof] at hr
    cases hr
  | some s =>
    obtain ⟨newest, hnewest, hofNewest, hs, hle⟩ := h
    have heq : newest = name := String.le_antisymm (hgreatest newest hnewest hofNewest)
      (hle name hmem hof (by rw [hr]; rfl))
    rw [← heq, hs] at hr
    exact hr

/-- **Without the unusable reports the newest usable one is found.** -/
theorem Tidied.latest? (h : Tidied folder names m other) (p : String) :
    ∃ answer, Report.latest? other p = .ok answer ∧
      IsNewestUsable m.disk folder names p answer := by
  obtain ⟨kept, hlist, hkept⟩ := h.listed
  rcases latest?_of_list h.path hlist p with ⟨hname, hlatest⟩ | ⟨name, hname, hlatest⟩
  · refine ⟨none, hlatest, fun name hmem hof => ?_⟩
    refine Option.eq_none_iff_forall_ne_some.2 fun r hr => ?_
    have hstays := (hkept name (isReportName_of_isFileNameOf hof)).2 ⟨hmem, r, hr⟩
    rw [latestName?_eq_none.1 hname name hstays] at hof
    cases hof
  · obtain ⟨hstays, hof, hgreatest⟩ := latestName?_eq_some hname
    have hreport := isReportName_of_isFileNameOf hof
    obtain ⟨hmem, r, hr⟩ := (hkept name hreport).1 hstays
    have hload := usable?_eq_some_iff.1 (h.same name hmem hreport r hr)
    refine ⟨some r, hlatest.trans hload, name, hmem, hof, hr, fun older holder hofOlder hsome => ?_⟩
    refine hgreatest older ((hkept older (isReportName_of_isFileNameOf hofOlder)).2 ⟨holder, ?_⟩)
      hofOlder
    exact Option.isSome_iff_exists.1 hsome

/-- The machine without the files of the unusable reports. -/
def withoutUnusable (m : Machine) (folder : Path) : Machine :=
  match m.disk.locate folder .target with
  | .ok (.found place (.folder entries)) =>
    { m with disk := m.disk.withEntries place (entries.filter fun e => stays m.disk folder e.1) }
  | _ => m

theorem Holds.isEntryName (hholds : Holds m folder place entries)
    (hdisk : m.disk.top.Named IsEntryName) (hname : name ∈ entries.map Prod.fst) :
    IsEntryName name := by
  have hfound : m.disk.top.find? place = some (.folder entries) :=
    Node.walk_isIn (walk_of_locate hholds.there).2.2
  obtain ⟨entry, hentry, rfl⟩ := List.mem_map.1 hname
  cases hdisk.find? hfound with
  | folder _ hnames _ => exact hnames entry hentry

/-- The path of an entry has no NUL character. -/
theorem Holds.hasNul_extend (hholds : Holds m folder place entries)
    (hdisk : m.disk.top.Named IsEntryName) (hname : name ∈ entries.map Prod.fst) :
    hasNul (folder.extend [name]) = false :=
  hasNul_entry (walk_of_locate hholds.there).1 (hholds.isEntryName hdisk hname)

theorem load?_congr {e : Disk} (h : e.readBytes path = d.readBytes path) :
    load? e path = load? d path := by
  simp only [load?, readText, readExact, h]

/-- **Files that are taken out of the folder are gone, and the others are as they were.** -/
theorem tidied_withoutUnusable (hdisk : m.disk.top.Named IsEntryName)
    (hfolder : m.reportsFolder = .ok folder) (hlist : m.disk.list folder = .ok entries)
    (hfiles : ∀ name node, entries.lookup name = some node → isReportName name = true →
      ∃ bytes, node = .file bytes) :
    Tidied folder (entries.map Prod.fst) m (withoutUnusable m folder) := by
  obtain ⟨hopen, place, hholds⟩ := Holds.of_list hfolder hlist
  have hgone : ∀ name node, entries.lookup name = some node →
      stays m.disk folder name = false → ∃ bytes, node = .file bytes := by
    intro name node hlookup hstays
    refine hfiles name node hlookup ?_
    rw [stays, Bool.or_eq_false_iff, Bool.not_eq_false'] at hstays
    exact hstays.1
  have hwithout : withoutUnusable m folder = { m with
      disk := m.disk.withEntries place (entries.filter fun e => stays m.disk folder e.1) } := by
    rw [withoutUnusable, hholds.there]
  rw [hwithout]
  refine ⟨hfolder, ⟨_, Holds.list_eq ⟨hfolder, locate_withEntries hholds.there hgone⟩ hopen,
    fun name hreport => ?_⟩, fun name hmem hreport r hr => ?_⟩
  · have hnames : (entries.filter fun e => stays m.disk folder e.1).map Prod.fst =
        (entries.map Prod.fst).filter (stays m.disk folder) := by
      rw [List.filter_map]
      rfl
    rw [hnames, List.mem_filter, stays_iff hreport]
  · obtain ⟨node, hlookup⟩ : ∃ node, entries.lookup name = some node := by
      refine Option.ne_none_iff_exists'.1 fun hnone => ?_
      obtain ⟨entry, hentry, rfl⟩ := List.mem_map.1 hmem
      simpa using List.lookup_eq_none_iff.1 hnone entry hentry
    obtain ⟨bytes, rfl⟩ := hfiles name node hlookup hreport
    have hstays := (stays_iff hreport).2 ⟨r, hr⟩
    rw [usable?_eq_some_iff] at hr ⊢
    rw [← hr]
    exact load?_congr (readBytes_withEntries hholds.there hgone (hholds.isEntryName hdisk hmem)
      hstays hlookup)

/-! ## Files that count as absent -/

theorem latest?_eq_error_iff (hdisk : m.disk.top.Named IsEntryName)
    (hfolder : m.reportsFolder = .ok folder) (hlist : m.disk.list folder = .ok entries) :
    latest? m p = .error fault ↔ fault = .undecodable ∧
      ∃ name, latestName? p (entries.map Prod.fst) = some name ∧
        m.disk.Undecodable (folder.extend [name]) := by
  obtain ⟨-, place, hholds⟩ := Holds.of_list hfolder hlist
  rcases latest?_of_list hfolder hlist p with ⟨hname, hlatest⟩ | ⟨name, hname, hlatest⟩
  · simp [hlatest, hname]
  · have hnul := hholds.hasNul_extend hdisk (latestName?_eq_some hname).1
    rw [hlatest, hname, load?_eq_error_iff hnul]
    simp

theorem latest?_eq_some_iff (hfolder : m.reportsFolder = .ok folder)
    (hlist : m.disk.list folder = .ok entries) :
    latest? m p = .ok (some r) ↔ ∃ name, latestName? p (entries.map Prod.fst) = some name ∧
      usable? m.disk folder name = some r := by
  rcases latest?_of_list hfolder hlist p with ⟨hname, hlatest⟩ | ⟨name, hname, hlatest⟩
  · simp [hlatest, hname]
  · simp [hlatest, hname, usable?_eq_some_iff]

/-- **Exactly when unusable reports count as absent:** the report with the greatest name is usable,
or the look into it is no fault and no report of the project is usable. -/
theorem latest?_eq_tidied_iff (hdisk : m.disk.top.Named IsEntryName)
    (hfolder : m.reportsFolder = .ok folder) (hlist : m.disk.list folder = .ok entries)
    (htidied : Tidied folder (entries.map Prod.fst) m other) :
    latest? m p = latest? other p ↔
      ∀ name, latestName? p (entries.map Prod.fst) = some name →
        (∃ r, usable? m.disk folder name = some r) ∨
        ¬ m.disk.Undecodable (folder.extend [name]) ∧
          ∀ older ∈ entries.map Prod.fst, isFileNameOf p older = true →
            usable? m.disk folder older = none := by
  obtain ⟨-, place, hholds⟩ := Holds.of_list hfolder hlist
  obtain ⟨answer, hother, hnewest⟩ := htidied.latest? p
  rw [hother]
  rcases latest?_of_list hfolder hlist p with ⟨hname, hlatest⟩ | ⟨name, hname, hlatest⟩
  · have hnone : answer = none := hnewest.eq_none_iff.2 fun name hmem hof => by
      rw [latestName?_eq_none.1 hname name hmem] at hof
      cases hof
    rw [hlatest, hnone]
    exact iff_of_true rfl (by simp [hname])
  · have hnul := hholds.hasNul_extend hdisk (latestName?_eq_some hname).1
    -- The latest name decides on the left side; the cases are what is in the file of that name.
    have hgreatest (P : String → Prop) :
        (∀ name, latestName? p (entries.map Prod.fst) = some name → P name) ↔ P name := by
      simp [hname]
    rw [hlatest, hgreatest]
    rcases load?_cases m.disk hnul with ⟨hundecodable, hfault⟩ | ⟨hdecodable, loaded, hloaded⟩
    · rw [hfault]
      refine iff_of_false (by simp) ?_
      rintro (⟨r, hr⟩ | ⟨hdecodable, -⟩)
      · rw [usable?_eq_some_iff, hfault] at hr
        cases hr
      · exact hdecodable hundecodable
    · rw [hloaded]
      cases loaded with
      | some r =>
        have hr : usable? m.disk folder name = some r := usable?_eq_some_iff.2 hloaded
        rw [hnewest.eq_some hname hr]
        exact iff_of_true rfl (.inl ⟨r, hr⟩)
      | none =>
        have hunusable : ¬ ∃ r, usable? m.disk folder name = some r := by
          rintro ⟨r, hr⟩
          rw [usable?_eq_some_iff, hloaded] at hr
          cases hr
        rw [← hnewest.eq_none_iff, or_iff_right hunusable, and_iff_right hdecodable,
          Except.ok.injEq, eq_comm]

/-- **An unusable report hides the usable ones behind it.** The search for the latest report ends in
a fault exactly if the bytes of the newest file of the project are no text, and it finds a report
exactly if that file holds it. If all unusable reports were taken away, the newest usable one of the
project would be found. The search finds the same exactly if the newest file is usable, or if it is
no such fault and no file of the project is usable. Reports that are files, and not links or
folders, are taken away with their files. -/
theorem latest?_unusable (hdisk : m.disk.top.Named IsEntryName)
    (hfolder : m.reportsFolder = .ok folder) (hlist : m.disk.list folder = .ok entries) :
    (∀ p,
      (∀ fault, latest? m p = .error fault ↔ fault = .undecodable ∧
        ∃ name, latestName? p (entries.map Prod.fst) = some name ∧
          m.disk.Undecodable (folder.extend [name])) ∧
      (∀ r, latest? m p = .ok (some r) ↔
        ∃ name, latestName? p (entries.map Prod.fst) = some name ∧
          usable? m.disk folder name = some r) ∧
      ∀ other, Tidied folder (entries.map Prod.fst) m other →
        (∃ answer, latest? other p = .ok answer ∧
          IsNewestUsable m.disk folder (entries.map Prod.fst) p answer) ∧
        (latest? m p = latest? other p ↔
          ∀ name, latestName? p (entries.map Prod.fst) = some name →
            (∃ r, usable? m.disk folder name = some r) ∨
            ¬ m.disk.Undecodable (folder.extend [name]) ∧
              ∀ older ∈ entries.map Prod.fst, isFileNameOf p older = true →
                usable? m.disk folder older = none)) ∧
    ((∀ name node, entries.lookup name = some node → isReportName name = true →
        ∃ bytes, node = .file bytes) →
      Tidied folder (entries.map Prod.fst) m (withoutUnusable m folder)) := by
  refine ⟨fun p => ⟨fun fault => latest?_eq_error_iff hdisk hfolder hlist,
    fun r => latest?_eq_some_iff hfolder hlist, fun other htidied => ⟨htidied.latest? p, ?_⟩⟩, ?_⟩
  · exact latest?_eq_tidied_iff hdisk hfolder hlist htidied
  · exact tidied_withoutUnusable hdisk hfolder hlist

/-! ## Two files -/

/-- Files for two days of a project. -/
def pairEntries (older newer : List UInt8) : List (String × Node) :=
  [("api-2026-03-01.json", .file older), ("api-2026-03-09.json", .file newer)]

/-- A machine with files for two days of a project. -/
def pairMachine (older newer : List UInt8) : Machine :=
  emptyMachine (some (pairEntries older newer)) []

section Pair

variable (older newer : List UInt8)

theorem isEntryName_pair : IsEntryName "reports" ∧ IsEntryName "api-2026-03-01.json" ∧
    IsEntryName "api-2026-03-09.json" := by
  refine ⟨⟨⟨?_, ?_, ?_⟩, ?_, ?_⟩, ⟨⟨?_, ?_, ?_⟩, ?_, ?_⟩, ⟨⟨?_, ?_, ?_⟩, ?_, ?_⟩⟩ <;> decide

theorem named_pairMachine : (pairMachine older newer).disk.top.Named IsEntryName := by
  obtain ⟨hreports, holder, hnewer⟩ := isEntryName_pair
  have hfiles : Node.Named IsEntryName (.folder (pairEntries older newer)) := by
    refine .folder (by simp [pairEntries]) ?_ ?_
    · simpa [pairEntries] using ⟨holder, hnewer⟩
    · simpa [pairEntries] using ⟨.file older, .file newer⟩
  refine .folder (by simp) ?_ ?_
  · exact List.forall_mem_singleton.2 hreports
  · exact List.forall_mem_singleton.2 hfiles

theorem holds_pairMachine :
    Holds (pairMachine older newer) ⟨.root, ["reports"]⟩ ["reports"] (pairEntries older newer) :=
  ⟨rfl, rfl⟩

theorem list_pairMachine :
    (pairMachine older newer).disk.list ⟨.root, ["reports"]⟩ = .ok (pairEntries older newer) := rfl

theorem latestName?_pair :
    latestName? "api" ((pairEntries older newer).map Prod.fst) = some "api-2026-03-09.json" := by
  have hnames : (pairEntries older newer).map Prod.fst =
      ["api-2026-03-01.json", "api-2026-03-09.json"] := rfl
  rw [hnames]
  decide

theorem exists_file_of_pair (name : String) (node : Node)
    (h : (pairEntries older newer).lookup name = some node) : ∃ bytes, node = .file bytes := by
  obtain ⟨before, after, hentries, -⟩ := List.lookup_eq_some_iff.1 h
  have hmem : (name, node) ∈ pairEntries older newer := by simp [hentries]
  simp only [pairEntries, List.mem_cons, Prod.mk.injEq, List.not_mem_nil, or_false] at hmem
  rcases hmem with ⟨-, rfl⟩ | ⟨-, rfl⟩
  · exact ⟨older, rfl⟩
  · exact ⟨newer, rfl⟩

/-- A report behind a file that cannot be used is found once that file is gone. -/
theorem latest?_withoutUnusable_pair
    (hnewer : usable? (pairMachine (specimen "api" 0 0).bytes newer).disk ⟨.root, ["reports"]⟩
      "api-2026-03-09.json" = none) :
    latest? (withoutUnusable (pairMachine (specimen "api" 0 0).bytes newer) ⟨.root, ["reports"]⟩)
      "api" = .ok (some (specimen "api" 0 0)) := by
  have holder := usable?_of_bytes (holds_pairMachine (specimen "api" 0 0).bytes newer)
    isEntryName_pair.2.1 ⟨rfl, by decide, rfl⟩ rfl (valid_specimen ..) (writable_specimen ..)
  have htidied := tidied_withoutUnusable (named_pairMachine (specimen "api" 0 0).bytes newer)
    (holds_pairMachine _ newer).path (list_pairMachine _ newer)
    fun name node h _ => exists_file_of_pair _ newer name node h
  obtain ⟨answer, hlatest, hnewest⟩ := htidied.latest? "api"
  rw [hlatest]
  cases answer with
  | none =>
    rw [hnewest "api-2026-03-01.json" (by simp [pairEntries]) (by decide)] at holder
    cases holder
  | some r =>
    obtain ⟨name, hmem, -, hr, -⟩ := hnewest
    simp only [pairEntries, List.map_cons, List.map_nil, List.mem_cons, List.not_mem_nil,
      or_false] at hmem
    rcases hmem with rfl | rfl
    · rw [holder] at hr
      exact congrArg Except.ok hr.symm
    · rw [hnewer] at hr
      cases hr

end Pair

/-- The newest file is a report, and an older one is empty. -/
theorem latest?_unusable_older :
    let r := specimen "api" 8 0
    let m := pairMachine [] r.bytes
    latest? m "api" = .ok (some r) ∧
      latest? (withoutUnusable m ⟨.root, ["reports"]⟩) "api" = .ok (some r) := by
  intro r m
  have hnewer := usable?_of_bytes (holds_pairMachine [] r.bytes) isEntryName_pair.2.2
    ⟨rfl, by decide, rfl⟩ rfl (valid_specimen ..) (writable_specimen ..)
  obtain ⟨hproject, hfiles⟩ := latest?_unusable (named_pairMachine [] r.bytes)
    (holds_pairMachine [] r.bytes).path (list_pairMachine [] r.bytes)
  obtain ⟨-, hsome, htidied⟩ := hproject "api"
  have hlatest : latest? m "api" = .ok (some r) :=
    (hsome r).2 ⟨_, latestName?_pair [] r.bytes, hnewer⟩
  have hwithout := htidied _ (hfiles fun name node h _ => exists_file_of_pair _ _ name node h)
  refine ⟨hlatest, ?_⟩
  rw [← hwithout.2.2, hlatest]
  intro name hname
  rw [latestName?_pair] at hname
  obtain rfl := Option.some.inj hname
  exact .inl ⟨r, hnewer⟩

/-- **A usable report is not found behind a file that cannot be used**, and behind one that is no
text the search is a fault. Without that file it is found. -/
theorem latest?_hidden :
    let good := specimen "api" 0 0
    let folder : Path := ⟨.root, ["reports"]⟩
    latest? (pairMachine good.bytes []) "api" = .ok none ∧
      latest? (withoutUnusable (pairMachine good.bytes []) folder) "api" = .ok (some good) ∧
      latest? (pairMachine good.bytes [0xff]) "api" = .error .undecodable ∧
      latest? (withoutUnusable (pairMachine good.bytes [0xff]) folder) "api" =
        .ok (some good) := by
  intro good folder
  have hlatest (newer : List UInt8) := latest?_eq_load? (holds_pairMachine good.bytes newer) rfl
    (latestName?_pair good.bytes newer)
  refine ⟨?_, latest?_withoutUnusable_pair [] rfl, ?_, latest?_withoutUnusable_pair [0xff] rfl⟩
  · rw [hlatest]
    rfl
  · rw [hlatest]
    rfl

end Report

end WorkspaceAudit
