import WorkspaceAudit.Proofs.Command.Scanning
import WorkspaceAudit.Proofs.Display.Showing
import WorkspaceAudit.Proofs.Report.Saved

/-!
# Projects whose scans fail

A scan of all projects goes on after a project whose scan fails. It stops only where something
cannot be written or shown: a file, a number with too many digits, or an item that the terminal
refuses.

- `Attempted scan page m outcomes last`: the projects are scanned one after the other, each with its
  outcome, and all files can be written.
- `Attempted.alters`: which files are written; `Attempted.reads_or_shares`: each report that has
  been made is in its file at the end, unless something is written there later.
- `Command.scanEach_run_ok`: all of the session after the scans; `Command.scanEach_run_error`: all
  of it where a page ends early.
- `fault_shown`: what ends the pages on a terminal that reads markup.
- `run_scanAll`: what comes of a scan of all projects.
-/

namespace WorkspaceAudit

/-- The reports among the outcomes of scans. -/
def returned (outcomes : List (Project × Except Fault Report)) : List Report :=
  outcomes.filterMap fun outcome => outcome.2.toOption

/-- The lines about the scans that failed. -/
def failureLines (outcomes : List (Project × Except Fault Report)) : List String :=
  outcomes.filterMap fun outcome =>
    match outcome.2 with
    | .ok _ => none
    | .error fault => some (outcome.1.name ++ " - scan failed: " ++ fault.message)

/-- Lines of the terminal, one below the other. -/
def linesText (lines : List String) : String :=
  lines.foldr (fun line rest => outputLine line ++ rest) ""

section Outcomes

variable {p : Project} {r : Report} {fault : Fault}
  {outcomes : List (Project × Except Fault Report)}

theorem returned_reported : returned ((p, .ok r) :: outcomes) = r :: returned outcomes := rfl

theorem failureLines_failed : failureLines ((p, .error fault) :: outcomes) =
    (p.name ++ " - scan failed: " ++ fault.message) :: failureLines outcomes := rfl

theorem failureLines_reported :
    failureLines ((p, .ok r) :: outcomes) = failureLines outcomes := rfl

theorem linesText_cons (line : String) (lines : List String) :
    linesText (line :: lines) = outputLine line ++ linesText lines := rfl

end Outcomes

/-- **Projects are attempted one after the other**, each with its outcome. A report is stored, and
its page is written if pages are asked for. -/
inductive Attempted (scan : Scan) (page : Bool) :
    Machine → List (Project × Except Fault Report) → Machine → Prop where
  | done (m : Machine) : Attempted scan page m [] m
  | failed {m next last : Machine} {p : Project} {fault : Fault}
      {outcomes : List (Project × Except Fault Report)}
      (scan_run : (scan (.ofString p.path)).run m = (.error fault, next))
      (others : Attempted scan page next outcomes last) :
      Attempted scan page m ((p, .error fault) :: outcomes) last
  | reported {m next stored paged last : Machine} {p : Project} {r : Report} {path : Path}
      {outcomes : List (Project × Except Fault Report)}
      (scan_run : (scan (.ofString p.path)).run m = (.ok r, next))
      (save_run : r.save.run next = (.ok path, stored))
      (page_run :
        if page then ∃ path, (r.savePage (.ofString p.path)).run stored = (.ok path, paged)
        else paged = stored)
      (others : Attempted scan page paged outcomes last) :
      Attempted scan page m ((p, .ok r) :: outcomes) last

/-! ## Files -/

/-- A scan that alters no file and no folder. -/
def Scan.Looks (scan : Scan) : Prop :=
  ∀ (path : Path) (m : Machine), m.Alters ((scan path).run m).2 (fun _ => False) fun _ => False

/-- The paths at which something is written for the reports among some outcomes. -/
def WrittenFor (m : Machine) (page : Bool) (outcomes : List (Project × Except Fault Report))
    (q : Path) : Prop :=
  ∃ p r, (p, .ok r) ∈ outcomes ∧
    ((∃ folder, m.reportsFolder = .ok folder ∧ q = folder.below r.fileName) ∨
      page = true ∧ q = (Path.ofString p.path).below "SECURITY.md")

/-- The paths at which something is written once the report on a project is stored: its page, and
what is written for the projects after it. -/
def WrittenAfter (m : Machine) (page : Bool) (p : Project)
    (after : List (Project × Except Fault Report)) (q : Path) : Prop :=
  page = true ∧ q = (Path.ofString p.path).below "SECURITY.md" ∨ WrittenFor m page after q

/-- The paths at which folders are made for reports: those to the folder of the reports. -/
def MadeFor (m : Machine) (outcomes : List (Project × Except Fault Report)) (q : Path) : Prop :=
  returned outcomes ≠ [] ∧ ∃ folder, m.reportsFolder = .ok folder ∧ q.IsOnWay folder

namespace Disk

variable {d d' : Disk} {p : Path} {bytes : List UInt8} {written made : Path → Prop}

/-- Two paths lead to one file. -/
def Shares (d : Disk) (p q : Path) : Prop :=
  ∃ names bytes, d.LeadsTo p names (.file bytes) ∧ d.LeadsTo q names (.file bytes)

/-- **A file is as before, unless it has been written**, under its path or another one. -/
theorem Alters.reads_or_shares (h : d.Alters d' written made) (hread : d.readBytes p = .ok bytes) :
    d'.readBytes p = .ok bytes ∨ ∃ q, written q ∧ d'.Shares p q := by
  obtain ⟨hopen, names, hlocate⟩ := exists_file_of_readBytes hread
  have hfile := (locate_leads hlocate).2.1
  obtain ⟨bytes', hfile'⟩ := h.grows.file hfile
  have hleads : d'.LeadsTo p names (.file bytes') := h.leadsTo hlocate hfile' (by simp)
  rcases h.files hfile' with hsame | ⟨q, hq, hleads'⟩
  · obtain rfl := Node.file.inj (Option.some.inj (hfile.symm.trans hsame))
    refine .inl ?_
    have hopen' : d'.isClosed p = false := by rwa [isClosed, h.closed]
    unfold LeadsTo at hleads
    rw [readBytes, hopen', if_neg Bool.false_ne_true, hleads]
  · exact .inr ⟨q, hq, names, bytes', hleads, hleads'⟩

end Disk

namespace Attempted

variable {scan : Scan} {page : Bool} {first m next stored paged last : Machine} {p : Project}
  {r : Report} {path : Path} {outcomes : List (Project × Except Fault Report)}

theorem alters_of_scan {outcome : Except Fault Report} (hscan : scan.Looks)
    (scan_run : (scan (.ofString p.path)).run m = (outcome, next)) :
    m.Alters next (fun _ => False) fun _ => False := by
  have halters := hscan (.ofString p.path) m
  rwa [scan_run] at halters

theorem alters_of_page
    (page_run : if page then ∃ path, (r.savePage (.ofString p.path)).run stored = (.ok path, paged)
      else paged = stored) :
    stored.Alters paged
      (fun q => page = true ∧ q = (Path.ofString p.path).below "SECURITY.md") fun _ => False := by
  split at page_run
  · rename_i hpage
    obtain ⟨place, hrun⟩ := page_run
    have halters := r.alters_savePage (.ofString p.path) stored
    rw [hrun] at halters
    exact halters.mono (fun _ hq => ⟨hpage, hq⟩) fun _ => id
  · rw [page_run]
    exact .refl _ _ _

/-- What is done for a report alters the machine only as it may. -/
theorem alters_of_reported (save_run : r.save.run next = (.ok path, stored))
    (page_run : if page then ∃ path, (r.savePage (.ofString p.path)).run stored = (.ok path, paged)
      else paged = stored) (hfolder : next.reportsFolder = first.reportsFolder)
    (hmem : (p, .ok r) ∈ outcomes) :
    next.Alters paged (WrittenFor first page outcomes) (MadeFor first outcomes) := by
  have hstored := r.alters_save next
  rw [save_run, hfolder] at hstored
  refine (hstored.mono ?_ ?_).trans ((alters_of_page page_run).mono ?_ fun _ => False.elim)
  · exact fun q hq => ⟨p, r, hmem, .inl hq⟩
  · refine fun q hq => ⟨List.ne_nil_of_mem (a := r) ?_, hq⟩
    exact List.mem_filterMap.2 ⟨_, hmem, rfl⟩
  · exact fun q hq => ⟨p, r, hmem, .inr hq⟩

/-- The terminal is another one neither after a scan nor after what is done for its report. -/
theorem terminal_of_reported (hscan : scan.Looks)
    (scan_run : (scan (.ofString p.path)).run m = (.ok r, next))
    (save_run : r.save.run next = (.ok path, stored))
    (page_run : if page then ∃ path, (r.savePage (.ofString p.path)).run stored = (.ok path, paged)
      else paged = stored) : paged.terminal = m.terminal := by
  have hpaged : next.Alters paged (WrittenFor next page [(p, .ok r)]) (MadeFor next [(p, .ok r)]) :=
    alters_of_reported save_run page_run rfl List.mem_cons_self
  exact hpaged.terminal_eq.trans (alters_of_scan hscan scan_run).terminal_eq

theorem writtenFor_mono {outcomes' : List (Project × Except Fault Report)} {q : Path}
    (hsub : outcomes ⊆ outcomes') (h : WrittenFor m page outcomes q) :
    WrittenFor m page outcomes' q := by
  obtain ⟨p, r, hmem, hq⟩ := h
  exact ⟨p, r, hsub hmem, hq⟩

theorem madeFor_mono {outcomes' : List (Project × Except Fault Report)} {q : Path}
    (hsub : outcomes ⊆ outcomes') (h : MadeFor m outcomes q) : MadeFor m outcomes' q := by
  have hreports : returned outcomes ⊆ returned outcomes' := List.filterMap_subset _ hsub
  exact ⟨fun hnil => h.1 (List.subset_nil.1 (hnil ▸ hreports)), h.2⟩

/-- **Files are written for the reports that have been made, and for no other project.** -/
theorem alters (h : Attempted scan page m outcomes last) (hscan : scan.Looks)
    (hfolder : m.reportsFolder = first.reportsFolder) :
    m.Alters last (WrittenFor first page outcomes) (MadeFor first outcomes) := by
  induction h with
  | done m => exact .refl m _ _
  | failed scan_run _ ih =>
    have hnext := alters_of_scan hscan scan_run
    have hothers := ih (hnext.reportsFolder_eq.trans hfolder)
    refine (hnext.mono (fun _ => False.elim) fun _ => False.elim).trans (hothers.mono ?_ ?_)
    · exact fun q => writtenFor_mono (List.subset_cons_self _ _)
    · exact fun q => madeFor_mono (List.subset_cons_self _ _)
  | @reported m next stored paged last p r path outcomes scan_run save_run page_run _ ih =>
    have hnext := alters_of_scan hscan scan_run
    have hfolder' := hnext.reportsFolder_eq.trans hfolder
    have hpaged : next.Alters paged (WrittenFor first page ((p, .ok r) :: outcomes))
        (MadeFor first ((p, .ok r) :: outcomes)) :=
      alters_of_reported save_run page_run hfolder' List.mem_cons_self
    have hothers := ih (hpaged.reportsFolder_eq.trans hfolder')
    refine ((hnext.mono (fun _ => False.elim) fun _ => False.elim).trans hpaged).trans
      (hothers.mono ?_ ?_)
    · exact fun q => writtenFor_mono (List.subset_cons_self _ _)
    · exact fun q => madeFor_mono (List.subset_cons_self _ _)

/-- The file of a report right after it has been saved. -/
theorem reads_of_save (save_run : r.save.run next = (.ok path, stored)) :
    ∃ folder, next.reportsFolder = .ok folder ∧
      stored.disk.readBytes (folder.below r.fileName) = .ok r.bytes := by
  obtain ⟨folder, made, d, hfolder, -, -, hwrite, rfl⟩ := Report.of_save_run save_run
  exact ⟨folder, hfolder, Disk.readBytes_of_writeBytes hwrite⟩

/-- What comes after some of the projects starts from the machine that they leave. -/
theorem exists_of_append {before after : List (Project × Except Fault Report)}
    (h : Attempted scan page m (before ++ after) last) :
    ∃ mid, Attempted scan page m before mid ∧ Attempted scan page mid after last := by
  induction before generalizing m with
  | nil => exact ⟨m, .done m, h⟩
  | cons outcome before ih =>
    cases h with
    | failed scan_run others =>
      obtain ⟨mid, hbefore, hafter⟩ := ih others
      exact ⟨mid, .failed scan_run hbefore, hafter⟩
    | reported scan_run save_run page_run others =>
      obtain ⟨mid, hbefore, hafter⟩ := ih others
      exact ⟨mid, .reported scan_run save_run page_run hbefore, hafter⟩

/-- **Each report that has been made is in its file at the end**, unless something is written there
after it: its own page, or something for a later project. -/
theorem reads_or_shares {before after : List (Project × Except Fault Report)}
    (h : Attempted scan page m (before ++ (p, .ok r) :: after) last) (hscan : scan.Looks) :
    ∃ folder, m.reportsFolder = .ok folder ∧
      (last.disk.readBytes (folder.below r.fileName) = .ok r.bytes ∨
        ∃ q, WrittenAfter m page p after q ∧ last.disk.Shares (folder.below r.fileName) q) := by
  obtain ⟨mid, hbefore, hrest⟩ := exists_of_append h
  have hmid := (hbefore.alters hscan rfl).reportsFolder_eq
  cases hrest with
  | @reported _ next stored paged _ _ _ _ _ scan_run save_run page_run others =>
    obtain ⟨folder, hfolder, hread⟩ := reads_of_save save_run
    have hnext := (alters_of_scan hscan scan_run).reportsFolder_eq.trans hmid
    have hstored := (r.alters_save next).reportsFolder_eq
    rw [save_run] at hstored
    have hpaged := alters_of_page page_run
    have hothers := others.alters hscan ((hpaged.reportsFolder_eq.trans hstored).trans hnext)
    have hlast : stored.Alters last (WrittenAfter m page p after) (MadeFor m after) :=
      (hpaged.mono (fun _ => .inl) fun _ => False.elim).trans
        (hothers.mono (fun _ => .inr) fun _ => id)
    exact ⟨folder, hnext ▸ hfolder, hlast.disk.reads_or_shares hread⟩

end Attempted

namespace Command

variable {scan : Scan} {page json : Bool} {p : Project} {r : Report} {s : Session} {t : Terminal}
  {m next stored paged last : Machine} {path : Path} {fault : Fault}
  {outcomes : List (Project × Except Fault Report)}

/-! ## One project -/

/-- The page of one report in a scan. With JSON nothing is shown before the end. -/
def scanPages (json : Bool) (r : Report) : Page := if json then [] else Display.scanPage r

theorem showScan_run (json : Bool) (r : Report) (s : Session) :
    (showScan json r).run s = (print (scanPages json r)).run s := by
  cases json with
  | false => rw [showScan, scanPages, if_neg Bool.false_ne_true, if_neg Bool.false_ne_true]
  | true =>
    have hprint : (print []).run s = (.ok (), { s with printed := s.printed ++ [] }) := rfl
    rw [scanPages, if_pos rfl, hprint, List.append_nil]
    rfl

theorem scanOne_run_failed
    (hscan : (scan (.ofString p.path)).run s.machine = (.error fault, next)) :
    (scanOne scan page json p).run s =
      (.ok none, { s with
        machine := next
        errors := s.errors ++ outputLine (p.name ++ " - scan failed: " ++ fault.message) }) := by
  unfold scanOne
  rw [run_bind_ok (attempt_run hscan)]
  rfl

/-- What is left to do for a project with a report is to show it. -/
theorem scanOne_run_reported (hscan : (scan (.ofString p.path)).run s.machine = (.ok r, next))
    (hsave : r.save.run next = (.ok path, stored))
    (hpage : if page then ∃ path, (r.savePage (.ofString p.path)).run stored = (.ok path, paged)
      else paged = stored) :
    (scanOne scan page json p).run s =
      (showScan json r >>= fun _ => pure (some r) : Command (Option Report)).run
        { s with machine := paged } := by
  unfold scanOne
  rw [run_bind_ok (attempt_run hscan)]
  dsimp only
  rw [run_bind_ok (perform_run_ok (s := { s with machine := next }) hsave)]
  cases page with
  | false =>
    rw [if_neg Bool.false_ne_true] at hpage ⊢
    rw [hpage]
  | true =>
    rw [if_pos rfl] at hpage ⊢
    obtain ⟨place, hplace⟩ := hpage
    rw [run_bind_ok (perform_run_ok (s := { s with machine := stored }) hplace)]

/-- A report whose page is shown to its end. -/
theorem showScan_run_ok (h : (s.machine.terminal.display (scanPages json r)).fault = none) :
    (showScan json r >>= fun _ => pure (some r) : Command (Option Report)).run s =
      (.ok (some r),
        { s with
          printed := s.printed ++ (s.machine.terminal.display (scanPages json r)).items }) := by
  rw [run_bind_ok ((showScan_run json r s).trans (print_run_ok h))]
  rfl

/-- A report whose page ends early. -/
theorem showScan_run_error
    (h : (s.machine.terminal.display (scanPages json r)).fault = some fault) :
    (showScan json r >>= fun _ => pure (some r) : Command (Option Report)).run s =
      (.error (.fault fault),
        { s with
          printed := s.printed ++ (s.machine.terminal.display (scanPages json r)).items }) :=
  run_bind_error ((showScan_run json r s).trans (print_run_error h))

/-! ## All projects -/

/-- **All of the session after the scans**, if all pages are shown to their end: the reports that
have been made are returned in order, there is one line for each scan that failed, and the pages are
on the screen. -/
theorem scanEach_run_ok (h : Attempted scan page m outcomes last) (hscan : scan.Looks)
    (hmachine : s.machine = m) (ht : m.terminal = t)
    (hshown : (t.display ((returned outcomes).flatMap (scanPages json))).fault = none) :
    (scanEach scan page json (outcomes.map Prod.fst)).run s =
      (.ok (returned outcomes),
        { machine := last
          output := s.output
          errors := s.errors ++ linesText (failureLines outcomes)
          printed :=
            s.printed ++ (t.display ((returned outcomes).flatMap (scanPages json))).items }) := by
  -- The terminal is the same all the time, although each attempt leaves another machine.
  induction h generalizing s with
  | done m =>
    subst hmachine
    have hfirst : (scanEach scan page json []).run s = (.ok [], s) := rfl
    simp [hfirst, returned, failureLines, linesText, Terminal.display]
  | @failed m next last p fault outcomes scan_run others ih =>
    subst hmachine
    have hnext := (Attempted.alters_of_scan hscan scan_run).terminal_eq.trans ht
    rw [List.map_cons, scanEach, run_bind_ok (scanOne_run_failed scan_run),
      run_bind_ok (ih rfl hnext hshown), run_pure, failureLines_failed, linesText_cons,
      ← @String.append_assoc s.errors]
    rfl
  | @reported m next stored paged last p r path outcomes scan_run save_run page_run others ih =>
    subst hmachine
    have hpaged : paged.terminal = t :=
      (Attempted.terminal_of_reported hscan scan_run save_run page_run).trans ht
    rw [returned_reported, List.flatMap_cons] at hshown ⊢
    cases hfirst : (t.display (scanPages json r)).fault with
    | some fault =>
      rw [Terminal.display_append_of_some hfirst, hfirst] at hshown
      cases hshown
    | none =>
      rw [Terminal.display_append_of_none hfirst] at hshown ⊢
      have hone := (scanOne_run_reported scan_run save_run page_run).trans
        (showScan_run_ok (s := { s with machine := paged }) (hpaged ▸ hfirst))
      rw [List.map_cons, scanEach, run_bind_ok hone, run_bind_ok (ih rfl hpaged hshown), run_pure]
      simp [failureLines_reported, hpaged]

/-- **The scans end where a page ends early.** All that comes before is as if there were no more
projects than those up to that page. -/
theorem scanEach_run_error (h : Attempted scan page m outcomes last) (hscan : scan.Looks)
    (hmachine : s.machine = m) (ht : m.terminal = t)
    (hshown : (t.display ((returned outcomes).flatMap (scanPages json))).fault = some fault) :
    ∃ before after mid, outcomes = before ++ after ∧ Attempted scan page m before mid ∧
      (scanEach scan page json (outcomes.map Prod.fst)).run s =
        (.error (.fault fault),
          { machine := mid
            output := s.output
            errors := s.errors ++ linesText (failureLines before)
            printed :=
              s.printed ++ (t.display ((returned outcomes).flatMap (scanPages json))).items }) := by
  induction h generalizing s with
  | done m => cases hshown
  | @failed m next last p fault' outcomes scan_run others ih =>
    subst hmachine
    have hnext := (Attempted.alters_of_scan hscan scan_run).terminal_eq.trans ht
    obtain ⟨before, after, mid, rfl, hbefore, hrun⟩ :=
      ih (s := { s with machine := next, errors := _ }) rfl hnext hshown
    refine ⟨(p, .error fault') :: before, after, mid, rfl, .failed scan_run hbefore, ?_⟩
    rw [List.map_cons, scanEach, run_bind_ok (scanOne_run_failed scan_run), run_bind_error hrun,
      failureLines_failed, linesText_cons, ← @String.append_assoc s.errors]
    rfl
  | @reported m next stored paged last p r path outcomes scan_run save_run page_run others ih =>
    subst hmachine
    have hpaged : paged.terminal = t :=
      (Attempted.terminal_of_reported hscan scan_run save_run page_run).trans ht
    rw [returned_reported, List.flatMap_cons] at hshown ⊢
    cases hfirst : (t.display (scanPages json r)).fault with
    | some fault' =>
      -- The page of this report ends early, so that no other project is scanned.
      rw [Terminal.display_append_of_some hfirst] at hshown ⊢
      have hone := (scanOne_run_reported scan_run save_run page_run).trans
        (showScan_run_error (s := { s with machine := paged }) (hpaged ▸ hshown))
      refine ⟨[(p, .ok r)], outcomes, paged, rfl,
        .reported scan_run save_run page_run (.done _), ?_⟩
      rw [List.map_cons, scanEach, run_bind_error hone]
      simp [failureLines, linesText, hpaged]
    | none =>
      rw [Terminal.display_append_of_none hfirst] at hshown ⊢
      have hone := (scanOne_run_reported scan_run save_run page_run).trans
        (showScan_run_ok (s := { s with machine := paged }) (hpaged ▸ hfirst))
      obtain ⟨before, after, mid, rfl, hbefore, hrun⟩ :=
        ih (s := { s with machine := paged, printed := _ }) rfl hpaged hshown
      refine ⟨(p, .ok r) :: before, after, mid, rfl,
        .reported scan_run save_run page_run hbefore, ?_⟩
      rw [List.map_cons, scanEach, run_bind_ok hone, run_bind_error hrun]
      simp [failureLines_reported, hpaged]

/-! ## What is shown of all reports -/

/-- What a run of the program says about some reports. -/
def shownText (json : Bool) (reports : List Report) : String :=
  if json then outputLine ((Json.array (reports.map Report.toJson)).render .escaped) else ""

/-- What is on the screen when some reports have been shown, and what ends this early. With JSON
nothing is on the screen, and only a number can end it. -/
def shown (t : Terminal) (json : Bool) (reports : List Report) : Screen :=
  if json then
    ⟨[], if (reports.flatMap reportNumbers).all Text.Decimal.isWritable then none
      else some .unwritable⟩
  else t.display (reports.flatMap Display.scanPage ++ Display.summaryPage reports)

/-- The numbers that are shown of some reports: with JSON all of them, and otherwise those of the
pages and, if there are several reports, of their summary. -/
def shownNumbers (json : Bool) (reports : List Report) : List Int :=
  if json then reports.flatMap reportNumbers
  else
    reports.flatMap Display.scanNumbers ++
      if reports.length ≤ 1 then []
      else Display.summaryNumbers reports ++ [Display.leadingTotal reports]

/-- All numbers that are shown of some reports can be written. -/
def isPrintable (json : Bool) (reports : List Report) : Bool :=
  (shownNumbers json reports).all Text.Decimal.isWritable

/-- **On a terminal that reads markup, only a number can end the pages of tidy reports.** With JSON
the terminal and the texts do not matter. -/
theorem fault_shown {reports : List Report}
    (h : json = false → t.ReadsMarkup ∧ ∀ r ∈ reports, r.IsTidy) :
    (shown t json reports).fault = if isPrintable json reports then none else some .unwritable := by
  cases json with
  | true => rfl
  | false =>
    obtain ⟨ht, htidy⟩ := h rfl
    have hpages : Page.TidyWith (reports.flatMap Display.scanPage ++ Display.summaryPage reports)
        (shownNumbers false reports) :=
      (Page.TidyWith.flatMap fun r hr => Display.tidyWith_scanPage (htidy r hr)).append
        (Display.tidyWith_summaryPage htidy)
    exact hpages.fault_eq ht

/-- With JSON, no page is shown on the way. -/
theorem display_scanPages_true (t : Terminal) (reports : List Report) :
    t.display (reports.flatMap (scanPages true)) = ⟨[], none⟩ := by
  have hnone : reports.flatMap (scanPages true) = [] := List.flatMap_eq_nil_iff.2 fun _ _ => rfl
  rw [hnone]
  rfl

theorem flatMap_scanPages_false (reports : List Report) :
    reports.flatMap (scanPages false) = reports.flatMap Display.scanPage := rfl

theorem need_run_ok {α : Type} {outcome : Except Fault α} {a : α} (h : outcome = .ok a)
    (s : Session) : (need outcome).run s = (.ok a, s) := by
  rw [h]
  rfl

theorem need_run_error {α : Type} {outcome : Except Fault α} (h : outcome = .error fault)
    (s : Session) : (need outcome).run s = (.error (.fault fault), s) := by
  rw [h]
  rfl

/-- **The scans and what is shown of them**, if nothing ends it early. -/
theorem scans_run_ok (h : Attempted scan page m outcomes last) (hscan : scan.Looks)
    (hshown : (shown m.terminal json (returned outcomes)).fault = none) :
    (scanEach scan page json (outcomes.map Prod.fst) >>= showScans json).run { machine := m } =
      (.ok (), {
        machine := last
        output := shownText json (returned outcomes)
        errors := linesText (failureLines outcomes)
        printed := (shown m.terminal json (returned outcomes)).items }) := by
  cases json with
  | true =>
    have hpages := display_scanPages_true m.terminal (returned outcomes)
    have htext : reportsText (returned outcomes) =
        .ok ((Json.array ((returned outcomes).map Report.toJson)).render .escaped) := by
      refine if_pos (Decidable.of_not_not fun hnumbers => ?_)
      rw [shown, if_pos rfl, if_neg hnumbers] at hshown
      cases hshown
    rw [run_bind_ok (scanEach_run_ok h hscan rfl rfl (by rw [hpages])), hpages, showScans,
      if_pos rfl, run_bind_ok (need_run_ok htext _), say_run]
    simp [shownText, shown]
  | false =>
    rw [shown, if_neg Bool.false_ne_true, ← flatMap_scanPages_false] at hshown ⊢
    cases hpages : (m.terminal.display ((returned outcomes).flatMap (scanPages false))).fault with
    | some fault =>
      rw [Terminal.display_append_of_some hpages, hpages] at hshown
      cases hshown
    | none =>
      rw [Terminal.display_append_of_none hpages] at hshown ⊢
      have hlast : last.terminal = m.terminal := (h.alters hscan rfl).terminal_eq
      rw [run_bind_ok (scanEach_run_ok h hscan rfl rfl hpages), showScans,
        if_neg Bool.false_ne_true, print_run_ok (by rw [hlast]; exact hshown), hlast]
      simp [shownText]

/-- **The scans and what is shown of them**, if something ends it early: all projects up to some
point have their outcome, and no other has been scanned. -/
theorem scans_run_error (h : Attempted scan page m outcomes last) (hscan : scan.Looks)
    (hshown : (shown m.terminal json (returned outcomes)).fault = some fault) :
    ∃ before after mid, outcomes = before ++ after ∧ Attempted scan page m before mid ∧
      (scanEach scan page json (outcomes.map Prod.fst) >>= showScans json).run { machine := m } =
        (.error (.fault fault), {
          machine := mid
          errors := linesText (failureLines before)
          printed := (shown m.terminal json (returned outcomes)).items }) := by
  cases json with
  | true =>
    have hpages := display_scanPages_true m.terminal (returned outcomes)
    rw [shown, if_pos rfl] at hshown ⊢
    dsimp only at hshown
    split at hshown
    · cases hshown
    rename_i hnumbers
    cases hshown
    have htext : reportsText (returned outcomes) = .error .unwritable := if_neg hnumbers
    refine ⟨outcomes, [], last, (List.append_nil _).symm, h, ?_⟩
    rw [run_bind_ok (scanEach_run_ok h hscan rfl rfl (by rw [hpages])), hpages, showScans,
      if_pos rfl, run_bind_error (need_run_error htext _)]
    simp
  | false =>
    rw [shown, if_neg Bool.false_ne_true, ← flatMap_scanPages_false] at hshown ⊢
    cases hpages : (m.terminal.display ((returned outcomes).flatMap (scanPages false))).fault with
    -- A page of one of the scans stops the command there.
    | some fault' =>
      rw [Terminal.display_append_of_some hpages] at hshown ⊢
      obtain ⟨before, after, mid, houtcomes, hbefore, hrun⟩ :=
        scanEach_run_error (s := { machine := m }) h hscan rfl rfl hshown
      refine ⟨before, after, mid, houtcomes, hbefore, ?_⟩
      rw [run_bind_error hrun]
      simp
    -- All of these are shown, and it is the summary that stops the command.
    | none =>
      rw [Terminal.display_append_of_none hpages] at hshown ⊢
      have hlast : last.terminal = m.terminal := (h.alters hscan rfl).terminal_eq
      refine ⟨outcomes, [], last, (List.append_nil _).symm, h, ?_⟩
      rw [run_bind_ok (scanEach_run_ok h hscan rfl rfl hpages), showScans,
        if_neg Bool.false_ne_true, print_run_error (by rw [hlast]; exact hshown), hlast]
      simp

/-- A scan of all projects scans each of them, and then shows the reports. -/
theorem scanProjects_run_all {config : Config} {target : Option String} {projects : List Project}
    (hload : Config.load s.machine = .ok config)
    (htargets : Invocation.Targets s.machine config target true projects) (hsome : projects ≠ []) :
    (scanProjects scan target true page json).run s =
      (scanEach scan page json projects >>= showScans json).run s := by
  have hprojects : (scanTargets config target true).run s = (.ok projects, s) := by
    cases htargets with
    | all workspace discover =>
      refine look_run_ok ?_
      rw [workspace]
      exact discover
  unfold scanProjects
  rw [run_bind_ok (look_run_ok hload), run_bind_ok hprojects]
  dsimp only
  rw [if_neg fun hempty => hsome (List.isEmpty_iff.1 hempty)]

end Command

/-! ## Runs of the program -/

section Runs

open Command

variable {scan : Scan} {args : List String} {target : Option String} {page json : Bool}
  {m last : Machine} {config : Config} {outcomes : List (Project × Except Fault Report)}

theorem run_scanAll_of_shown
    (hargs : Invocation.ofArguments? args = some (.scan target true page json))
    (hload : Config.load m = .ok config)
    (htargets : Invocation.Targets m config target true (outcomes.map Prod.fst))
    (hsome : outcomes ≠ []) (hscans : Attempted scan page m outcomes last) (hscan : scan.Looks)
    (hshown : (shown m.terminal json (returned outcomes)).fault = none) :
    run scan args m = (.ended 0 (shownText json (returned outcomes))
      (linesText (failureLines outcomes)) (shown m.terminal json (returned outcomes)).items none,
      last) := by
  have hcommand : (scanProjects scan target true page json).run { machine := m } = _ :=
    scanProjects_run_all hload htargets (by simpa using hsome)
  rw [run, hargs]
  simp only [Invocation.command, hcommand, scans_run_ok hscans hscan hshown]

theorem run_scanAll_of_fault {fault : Fault}
    (hargs : Invocation.ofArguments? args = some (.scan target true page json))
    (hload : Config.load m = .ok config)
    (htargets : Invocation.Targets m config target true (outcomes.map Prod.fst))
    (hsome : outcomes ≠ []) (hscans : Attempted scan page m outcomes last) (hscan : scan.Looks)
    (hshown : (shown m.terminal json (returned outcomes)).fault = some fault) :
    ∃ before after mid, outcomes = before ++ after ∧ Attempted scan page m before mid ∧
      run scan args m = (.ended 1 "" (linesText (failureLines before))
        (shown m.terminal json (returned outcomes)).items (some fault), mid) := by
  have hcommand : (scanProjects scan target true page json).run { machine := m } = _ :=
    scanProjects_run_all hload htargets (by simpa using hsome)
  obtain ⟨before, after, mid, houtcomes, hbefore, hrun⟩ := scans_run_error hscans hscan hshown
  refine ⟨before, after, mid, houtcomes, hbefore, ?_⟩
  rw [run, hargs]
  simp only [Invocation.command, hcommand, hrun]

/-- **A project whose scan fails does not stop a scan of all projects.** If nothing ends the
showing, the program ends without an error, with one line for each scan that failed and with the
reports of the others, in order; files are written for these alone, and their reports are stored.
What ends the showing is the error that the program ends with, after the projects up to that point,
although no file failed. With JSON, or with tidy reports on a terminal that reads markup, this is
only a number that cannot be written. -/
theorem run_scanAll
    (hargs : Invocation.ofArguments? args = some (.scan target true page json))
    (hload : Config.load m = .ok config)
    (htargets : Invocation.Targets m config target true (outcomes.map Prod.fst))
    (hsome : outcomes ≠ []) (hscans : Attempted scan page m outcomes last)
    (hscan : scan.Looks) :
    ((shown m.terminal json (returned outcomes)).fault = none →
      run scan args m = (.ended 0 (shownText json (returned outcomes))
        (linesText (failureLines outcomes)) (shown m.terminal json (returned outcomes)).items none,
        last) ∧
      m.Alters last (WrittenFor m page outcomes) (MadeFor m outcomes) ∧
      ∀ before p r after, outcomes = before ++ (p, .ok r) :: after →
        ∃ folder, m.reportsFolder = .ok folder ∧
          (last.disk.readBytes (folder.below r.fileName) = .ok r.bytes ∨
            ∃ q, WrittenAfter m page p after q ∧
              last.disk.Shares (folder.below r.fileName) q)) ∧
    (∀ fault, (shown m.terminal json (returned outcomes)).fault = some fault →
      ∃ before after mid, outcomes = before ++ after ∧ Attempted scan page m before mid ∧
        run scan args m = (.ended 1 "" (linesText (failureLines before))
          (shown m.terminal json (returned outcomes)).items (some fault), mid)) ∧
    ((json = false → m.terminal.ReadsMarkup ∧ ∀ r ∈ returned outcomes, r.IsTidy) →
      (shown m.terminal json (returned outcomes)).fault =
        if isPrintable json (returned outcomes) then none else some .unwritable) := by
  refine ⟨fun hshown => ⟨?_, hscans.alters hscan rfl, ?_⟩, fun fault hshown => ?_, fault_shown⟩
  · exact run_scanAll_of_shown hargs hload htargets hsome hscans hscan hshown
  · rintro before p r after rfl
    exact hscans.reads_or_shares hscan
  · exact run_scanAll_of_fault hargs hload htargets hsome hscans hscan hshown

/-- A scan that succeeds for one project alone. -/
def scanOnly (project : Path) (r : Report) : Scan := fun path =>
  if path = project then pure r else throw (.failure "oops")

theorem looks_scanOnly (project : Path) (r : Report) : (scanOnly project r).Looks := by
  intro path m
  unfold scanOnly
  split <;> exact .refl m _ _

/-- Two projects, and a folder with reports. -/
def twoProjects (reports : List (String × Node)) : Machine :=
  rootMachine [plainEntry, ("q", .folder [("go.mod", .file [])]),
    ("store", .folder [("reports", .folder reports)])]

/-- What comes of the two projects if the scan of the second one fails. -/
def twoOutcomes (r : Report) : List (Project × Except Fault Report) :=
  [(.plain ⟨.root, ["p"]⟩, .ok r), (.plain ⟨.root, ["q"]⟩, .error (.failure "oops"))]

theorem attempted_twoProjects (duration : Nat) :
    Attempted (scanOnly ⟨.root, ["p"]⟩ (.specimen "p" 0 duration)) false (twoProjects [])
      (twoOutcomes (.specimen "p" 0 duration))
      (twoProjects [("p-2026-03-01.json", .file (Report.specimen "p" 0 duration).bytes)]) := by
  have hlocate : (twoProjects []).disk.locate ⟨.root, ["store", "reports"]⟩ .target =
      .ok (.found ["store", "reports"] (.folder [])) := rfl
  have hname : (Report.specimen "p" 0 0).fileName = "p-2026-03-01.json" := by decide
  have hwrite (bytes : List UInt8) : (twoProjects []).disk.writeBytes
      (Path.below ⟨.root, ["store", "reports"]⟩ (Report.specimen "p" 0 0).fileName) bytes =
        .ok (twoProjects [("p-2026-03-01.json", .file bytes)]).disk := by
    rw [hname]
    rfl
  have hpaths : Path.ofString (Project.plain ⟨.root, ["p"]⟩).path = ⟨.root, ["p"]⟩ ∧
      Path.ofString (Project.plain ⟨.root, ["q"]⟩).path = ⟨.root, ["q"]⟩ := by decide +kernel
  have hsave := Report.save_run_ok rfl (Disk.makeFolders_of_folder hlocate)
    (Report.valid_specimen "p" 0 duration) (hwrite _)
  refine .reported ?_ hsave rfl (.failed ?_ (.done _))
  · rw [hpaths.1]
    rfl
  · rw [hpaths.2]
    rfl

theorem targets_twoProjects (r : Report) :
    Invocation.Targets (twoProjects []) {} none true ((twoOutcomes r).map Prod.fst) := by
  have hdiscover : Project.discover (twoProjects []).disk ⟨.root, []⟩ ({} : Config).excluded =
      .ok [.plain ⟨.root, ["p"]⟩, .plain ⟨.root, ["q"]⟩] := by decide +kernel
  exact .all rfl hdiscover

theorem load_twoProjects : Config.load (twoProjects []) = .ok {} := by decide +kernel

theorem isPrintable_twoProjects (json : Bool) :
    isPrintable json (returned (twoOutcomes (.specimen "p" 0 0))) = true := by
  have hzero : Text.Decimal.isWritable 0 = true := Check.isWritable_of_small (by decide)
  have hall : ∀ n ∈ shownNumbers json (returned (twoOutcomes (.specimen "p" 0 0))), n = 0 := by
    cases json <;> decide
  exact List.all_eq_true.2 fun n hn => hall n hn ▸ hzero

theorem arguments_scanAll : Invocation.ofArguments? ["scan", "--all", "--json"] =
    some (.scan none true false true) := rfl

/-- The second project is reported to have failed, and the report on the first is stored, whether it
is printed as JSON or shown. -/
theorem run_scanAll_goes_on :
    let r := Report.specimen "p" 0 0
    let last := twoProjects [("p-2026-03-01.json", .file r.bytes)]
    run (scanOnly ⟨.root, ["p"]⟩ r) ["scan", "--all", "--json"] (twoProjects []) =
      (.ended 0 (outputLine ((Json.array [r.toJson]).render .escaped))
        (outputLine "q - scan failed: oops") [] none, last) ∧
    ∃ printed, run (scanOnly ⟨.root, ["p"]⟩ r) ["scan", "--all"] (twoProjects []) =
      (.ended 0 "" (outputLine "q - scan failed: oops") printed none, last) := by
  intro r last
  have herrors : linesText (failureLines (twoOutcomes r)) =
      outputLine "q - scan failed: oops" := by decide
  have htidy : ∀ r' ∈ returned (twoOutcomes r), r'.IsTidy := by decide
  have hargs : Invocation.ofArguments? ["scan", "--all"] = some (.scan none true false false) := rfl
  have hjson := run_scanAll arguments_scanAll load_twoProjects (targets_twoProjects r)
    (List.cons_ne_nil _ _) (attempted_twoProjects 0) (looks_scanOnly _ r)
  have hpages := run_scanAll hargs load_twoProjects (targets_twoProjects r)
    (List.cons_ne_nil _ _) (attempted_twoProjects 0) (looks_scanOnly _ r)
  have hfault := hjson.2.2 fun h => absurd h (by decide)
  have hfault' := hpages.2.2 fun _ => ⟨Terminal.readsMarkup_lenient, htidy⟩
  rw [isPrintable_twoProjects, if_pos rfl] at hfault hfault'
  have hrun := (hjson.1 hfault).1
  have hrun' := (hpages.1 hfault').1
  rw [herrors] at hrun hrun'
  exact ⟨hrun, _, hrun'⟩

/-- Each project has its outcome and the report is stored, but the program ends with an error: the
duration of the first scan has too many digits to be shown. -/
theorem run_scanAll_unwritable :
    Attempted (scanOnly ⟨.root, ["p"]⟩ (.specimen "p" 0 Text.Decimal.bound)) false (twoProjects [])
      (twoOutcomes (.specimen "p" 0 Text.Decimal.bound)) (twoProjects [("p-2026-03-01.json",
        .file (Report.specimen "p" 0 Text.Decimal.bound).bytes)]) ∧
    ∃ output errors printed,
      (run (scanOnly ⟨.root, ["p"]⟩ (.specimen "p" 0 Text.Decimal.bound))
        ["scan", "--all", "--json"] (twoProjects [])).1 =
        .ended 1 output errors printed (some .unwritable) := by
  have hnumbers :
      ¬isPrintable true (returned (twoOutcomes (.specimen "p" 0 Text.Decimal.bound))) = true := by
    intro h
    have hduration := List.all_eq_true.1 h _ List.mem_cons_self
    rw [Report.durationMs_specimen, Text.Decimal.isWritable_natCast] at hduration
    exact Nat.lt_irrefl _ hduration
  have hscans := attempted_twoProjects Text.Decimal.bound
  have hfault : (shown (twoProjects []).terminal true
      (returned (twoOutcomes (.specimen "p" 0 Text.Decimal.bound)))).fault = some .unwritable := by
    rw [fault_shown fun h => absurd h (by decide), if_neg hnumbers]
  obtain ⟨before, after, mid, -, -, hrun⟩ := run_scanAll_of_fault arguments_scanAll
    load_twoProjects (targets_twoProjects _) (List.cons_ne_nil _ _) hscans (looks_scanOnly _ _)
    hfault
  exact ⟨hscans, _, _, _, by rw [hrun]⟩

end Runs

end WorkspaceAudit
