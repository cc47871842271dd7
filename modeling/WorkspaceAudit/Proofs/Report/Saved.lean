import WorkspaceAudit.Proofs.Files.Sound
import WorkspaceAudit.Proofs.Report.Usable
import WorkspaceAudit.Proofs.Scan.Auditing
import WorkspaceAudit.Proofs.Workspace.Altering

/-!
# Reports of scans that have been saved

Saves that succeed.

- `Report.of_save_run`: what a save does.
- `Report.valid_of_save`: the report of a scan can be stored if it could be encoded.
- `Report.latest?_of_save`: a report that has been saved is found, unless a greater name hides it;
  whatever reports were there before, and wherever links lead.
- `Report.SavedFrom`: reports have been saved one after the other where there were none;
  `Report.SavedFrom.latest?_eq`: the last one of a project is found, if all are of one day.
-/

namespace WorkspaceAudit

open Node

namespace Report

variable {r : Report} {m m' next : Machine} {folder path project : Path}
  {entries : List (String × Node)}

theorem of_encoded {text : String} (h : r.encoded = .ok text) :
    r.findings.findSome? Finding.lone = none ∧ text = r.render := by
  unfold encoded at h
  split at h
  · cases h
  · rename_i hlone
    exact ⟨hlone, (Except.ok.inj h).symm⟩

/-- What a save that succeeds has done. -/
theorem of_save_run (h : r.save.run m = (.ok path, m')) :
    ∃ folder made d, m.reportsFolder = .ok folder ∧
      m.disk.makeFolders folder = (.ok (), made) ∧ r.findings.findSome? Finding.lone = none ∧
      made.writeBytes (folder.below r.fileName) r.bytes = .ok d ∧ m' = { m with disk := d } := by
  obtain ⟨folder, s, hinspect, hmore⟩ := exists_run_of_bind h
  obtain ⟨hfolder, rfl⟩ := Action.of_inspect_run hinspect
  obtain ⟨_, t, hmakes, hrest⟩ := exists_run_of_bind hmore
  obtain ⟨made, hmade, rfl⟩ := Action.of_makeFolders_run hmakes
  obtain ⟨_, u, hchange, hlast⟩ := exists_run_of_bind hrest
  obtain ⟨d, hwrites, rfl⟩ := Action.of_change_run hchange
  obtain ⟨text, hencoded, hwrite⟩ := exists_ok_of_bind hwrites
  obtain ⟨hlone, rfl⟩ := of_encoded hencoded
  exact ⟨folder, made, d, hfolder, hmade, hlone, hwrite, (Prod.mk.inj hlast).2.symm⟩

/-- **The report of a scan can be stored** if all of its texts have bytes. -/
theorem valid_of_save (hscan : (scanProject ProjectScanner.standard project).run m = (.ok r, next))
    (hsave : r.save.run next = (.ok path, m')) : r.Valid := by
  obtain ⟨root, now, ms, -, -, hreport⟩ := ofFindings_of_scanProject hscan
  obtain ⟨hfindings, hconsistent⟩ := consistent_ofFindings hreport
  obtain ⟨-, -, -, -, -, hlone, -⟩ := of_save_run hsave
  refine hconsistent.valid_iff.2 fun f hf => ⟨List.findSome?_eq_none_iff.1 hlone f hf, ?_⟩
  rw [hfindings] at hf
  exact fun n hn => one_le_line_of_mem_gather hf hn

/-- A name under which a file can be found is one of the names in the folder. -/
theorem Holds.mem_names {place names : List String} {name : String} {node : Node}
    (h : Holds m folder place entries) (hname : IsEntryName name)
    (hfound : m.disk.LeadsTo (folder.extend [name]) names node) : name ∈ entries.map Prod.fst := by
  have hends := Disk.endsIn_of_locate h.there
  obtain ⟨found, hentry⟩ := hends.exists_of_leadsTo hname.1 hfound
  exact List.mem_map.2 ⟨_, mem_of_find?_concat (Disk.locate_leads h.there).2.1 hentry, rfl⟩

/-- **A report that has been saved is found**, unless a greater name of its project is there. -/
theorem latest?_of_save (hsave : r.save.run m = (.ok path, m')) (hvalid : r.Valid)
    (hwritable : r.Writable) (hname : IsEntryName r.fileName)
    (hfolder : m'.reportsFolder = .ok folder) (hlist : m'.disk.list folder = .ok entries)
    (hgreatest : ∀ name ∈ entries.map Prod.fst, isFileNameOf r.project name = true →
      name ≤ r.fileName) : latest? m' r.project = .ok (some r) := by
  obtain ⟨folder', made, d, hfolder', -, -, hwrite, rfl⟩ := of_save_run hsave
  obtain rfl : folder' = folder := Except.ok.inj (hfolder'.symm.trans hfolder)
  rw [below_of_isEntryName hname] at hwrite
  obtain ⟨-, place, hholds⟩ := Holds.of_list hfolder hlist
  obtain ⟨names, hlocate⟩ := Disk.locate_of_writeBytes hwrite
  have hmem : r.fileName ∈ entries.map Prod.fst := hholds.mem_names hname hlocate
  have hof : isFileNameOf r.project r.fileName = true := (isFileNameOf_fileName r _).2 rfl
  rcases latest?_of_list hfolder hlist r.project with ⟨hnone, -⟩ | ⟨name, hlatest, hload⟩
  · rw [latestName?_eq_none.1 hnone r.fileName hmem] at hof
    cases hof
  · obtain ⟨hname, hofName, hle⟩ := latestName?_eq_some hlatest
    obtain rfl : name = r.fileName :=
      String.le_antisymm (hgreatest name hname hofName) (hle r.fileName hmem hof)
    rw [hload, load?_of_readBytes (Disk.readBytes_of_writeBytes hwrite),
      ofText_plainNewlines hvalid hwritable]
    rfl

/-! ## Saves one after the other -/

variable {start : Disk} {saved : List Report} {p : String}

/-- **Reports have been saved one after the other**, from a disk on that has no folder for them or
one with these entries. -/
structure SavedFrom (start : Disk) (folder : Path) (entries : List (String × Node))
    (saved : List Report) (m : Machine) : Prop where
  path : m.reportsFolder = .ok folder
  stored : saved = [] ∧ m.disk = start ∨ Stored start folder entries saved m

theorem Stored.congr (h : Stored start folder entries saved m) (hdisk : m'.disk = m.disk)
    (hfolder : m'.reportsFolder = m.reportsFolder) : Stored start folder entries saved m' := by
  obtain ⟨place, hholds⟩ := h.holds
  refine ⟨⟨place, hfolder.trans hholds.path, ?_⟩, ?_, h.names⟩
  · rw [hdisk]
    exact hholds.there
  · rw [hdisk]
    exact h.closed

theorem SavedFrom.congr (h : SavedFrom start folder entries saved m) (hdisk : m'.disk = m.disk)
    (hfolder : m'.reportsFolder = m.reportsFolder) : SavedFrom start folder entries saved m' := by
  refine ⟨hfolder.trans h.path, h.stored.imp (fun hnone => ?_) fun hstored => ?_⟩
  · exact ⟨hnone.1, hdisk.trans hnone.2⟩
  · exact hstored.congr hdisk hfolder

/-- A save that has added a report has stored it. -/
theorem Stored.of_saveNext (h : Stored start folder entries saved m) (hr : r.Storable entries)
    (hnext : saveNext (saved, m) r = (saved ++ [r], m')) :
    Stored start folder entries (saved ++ [r]) m' := by
  by_cases haccepts : start.Accepts folder entries r.fileName
  · obtain ⟨stored, -, hrun, hstored, -⟩ := h.saveNext_of_accepts hr haccepts
    obtain rfl : stored = m' := congrArg Prod.snd (hrun.symm.trans hnext)
    exact hstored
  · rw [h.saveNext_of_not_accepts hr haccepts] at hnext
    exact absurd (congrArg Prod.fst hnext) (by simp)

/-- One more save. -/
theorem SavedFrom.save (h : SavedFrom start folder entries saved m)
    (hstart : Provides start folder entries) (hr : r.Storable entries)
    (hsave : r.save.run m = (.ok path, m')) :
    SavedFrom start folder entries (saved ++ [r]) m' := by
  have hnext : saveNext (saved, m) r = (saved ++ [r], m') := by rw [saveNext, hsave]
  obtain ⟨-, -, d, -, -, -, -, rfl⟩ := of_save_run hsave
  refine ⟨h.path, .inr ?_⟩
  rcases h.stored with ⟨rfl, rfl⟩ | hstored
  · obtain ⟨made, place, hmake, hsame, hlocate⟩ := hstart.exists_made
    have hmade : Stored m.disk folder entries [] { m with disk := made } :=
      ⟨⟨place, h.path, hlocate⟩, hsame.closed, by simp⟩
    rw [saveNext_made h.path hmake hlocate hr.valid] at hnext
    exact hmade.of_saveNext hr hnext
  · exact hstored.of_saveNext hr hnext

/-- Of reports of one day, the latest one of a project is the last one. -/
theorem IsLatest.eq_find? {answer : Option Report} (h : IsLatest p saved answer)
    (hday : ∀ r ∈ saved, ∀ s ∈ saved, ¬s.scannedAt.date.Before r.scannedAt.date) :
    answer = saved.reverse.find? (·.project == p) := by
  cases answer with
  | none =>
    symm
    rw [List.find?_eq_none]
    intro s hs
    simpa using h s (List.mem_reverse.1 hs)
  | some r =>
    obtain ⟨before, after, rfl, hproject, -, hafter⟩ := h
    symm
    rw [List.find?_eq_some_iff_append]
    refine ⟨by simpa using hproject, after.reverse, before.reverse, by simp, fun s hs => ?_⟩
    have hs := List.mem_reverse.1 hs
    have hother : s.project ≠ p := fun hp =>
      hday r (by simp) s (by simp [hs]) (hafter s hs hp)
    simpa using hother

/-- **The last report of a project is found** after saves on one day, where no reports were. -/
theorem SavedFrom.latest?_eq (h : SavedFrom start folder entries saved m)
    (hstart : Provides start folder entries) (hopen : start.isClosed folder = false)
    (hnone : ∀ name ∈ entries.map Prod.fst, isReportName name = false)
    (hsaved : ∀ r ∈ saved, r.Storable entries ∧ r.Writable)
    (hday : ∀ r ∈ saved, ∀ s ∈ saved, ¬s.scannedAt.date.Before r.scannedAt.date) (p : String) :
    latest? m p = .ok (saved.reverse.find? (·.project == p)) := by
  have hnone' : ∀ name ∈ entries.map Prod.fst, isFileNameOf p name = false := by
    intro name hname
    rw [Bool.eq_false_iff]
    intro hof
    exact absurd (isReportName_of_isFileNameOf hof) (by simp [hnone name hname])
  rcases h.stored with ⟨rfl, rfl⟩ | hstored
  · exact latest?_of_provides h.path hopen hstart hnone'
  · rcases hstored.latest? hopen hnone' fun r hr => (hsaved r hr).1 with
      ⟨hread, hlatest⟩ | ⟨r, hr, hlatest, hread⟩
    · rw [hread, hlatest.eq_find? hday]
    · obtain ⟨hstorable, hwritable⟩ := hsaved r hr
      rw [hread, ofText_plainNewlines hstorable.valid hwritable, ← hlatest.eq_find? hday]
      rfl

end Report

end WorkspaceAudit
