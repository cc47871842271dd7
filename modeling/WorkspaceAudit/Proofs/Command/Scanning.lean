import WorkspaceAudit.Proofs.Command.Footprint
import WorkspaceAudit.Proofs.Workspace.Distinct
import WorkspaceAudit.Proofs.Workspace.Projects

/-!
# Runs of scans

What a scan of projects does, told by its steps on the machine and without the session around them.

- `Scanned scan page m projects results m'`: the projects are scanned one after the other, with
  these reports, and the machine is the other one then.
- `Completes`: a scan of what a command line names is completed; `completes_of_run`: a run of the
  program is such a scan, and prints what it results in.
- `Completes.exists_start`: each report is made on a machine that the run has altered only as it
  may; `Completes.about`: what the report is about.
-/

namespace WorkspaceAudit

/-- **Projects are scanned one after the other.** A scan that fails has no result; a report is
stored, and its page is written if pages are asked for. -/
inductive Scanned (scan : Scan) (page : Bool) :
    Machine → List Project → List (Project × Report) → Machine → Prop where
  | done (m : Machine) : Scanned scan page m [] [] m
  | failed {m next last : Machine} {p : Project} {more : List Project}
      {results : List (Project × Report)} {fault : Fault}
      (scan_run : (scan (.ofString p.path)).run m = (.error fault, next))
      (others : Scanned scan page next more results last) :
      Scanned scan page m (p :: more) results last
  | reported {m next stored paged last : Machine} {p : Project} {r : Report} {path : Path}
      {more : List Project} {results : List (Project × Report)}
      (scan_run : (scan (.ofString p.path)).run m = (.ok r, next))
      (save_run : r.save.run next = (.ok path, stored))
      (page_run :
        if page then ∃ path, (r.savePage (.ofString p.path)).run stored = (.ok path, paged)
        else paged = stored)
      (others : Scanned scan page paged more results last) :
      Scanned scan page m (p :: more) ((p, r) :: results) last

/-- **A scan is completed**: the projects that it is about have been scanned, with these results. -/
structure Completes (scan : Scan) (target : Option String) (all page : Bool) (m : Machine)
    (projects : List Project) (results : List (Project × Report)) (last : Machine) : Prop where
  targets : ∃ config, Config.load m = .ok config ∧
    Invocation.Targets m config target all projects
  scanned : Scanned scan page m projects results last

namespace Command

variable {α β : Type} {s t : Session} {a : α} {scan : Scan} {page json : Bool} {p : Project}

/-! ## Steps that have been done -/

theorem of_need_run {outcome : Except Fault α} (h : (need outcome).run s = (.ok a, t)) :
    outcome = .ok a ∧ t = s := by
  cases outcome with
  | ok a' =>
    cases h
    exact ⟨rfl, rfl⟩
  | error fault => cases h

theorem of_perform_run {action : Action α} (h : (perform action).run s = (.ok a, t)) :
    action.run s.machine = (.ok a, t.machine) ∧ t = { s with machine := t.machine } := by
  rcases hrun : action.run s.machine with ⟨fault | a', m'⟩
  · rw [perform_run_error hrun] at h
    cases h
  · rw [perform_run_ok hrun] at h
    cases h
    exact ⟨rfl, rfl⟩

theorem eq_of_look_run {f : Machine → Except Fault α} (h : (look f).run s = (.ok a, t)) :
    t = s := by
  have hlook := of_look_run h
  rw [look_run_ok hlook] at h
  exact (Prod.mk.inj h).2.symm

theorem eq_of_scanTargets_run {config : Config} {project : Option String} {all : Bool}
    {projects : List Project}
    (h : (scanTargets config project all).run s = (.ok projects, t)) : t = s := by
  unfold scanTargets at h
  split at h
  · exact eq_of_look_run h
  split at h
  · cases h
    rfl
  · obtain ⟨found, u, hlook, h⟩ := exists_run_of_bind h
    obtain rfl := eq_of_look_run hlook
    cases found with
    | none => cases h
    | some p =>
      cases h
      rfl

theorem of_print_run {page : Page} {u : Unit} (h : (print page).run s = (.ok u, t)) :
    (s.machine.terminal.display page).fault = none ∧
      t = { s with printed := s.printed ++ (s.machine.terminal.display page).items } := by
  cases hfault : (s.machine.terminal.display page).fault with
  | some fault =>
    rw [print_run_error hfault] at h
    cases h
  | none =>
    rw [print_run_ok hfault] at h
    cases h
    exact ⟨rfl, rfl⟩

theorem outputLine_ne_empty (line : String) : outputLine line ≠ "" := by
  intro h
  have hlength := congrArg String.length h
  simp [outputLine] at hlength

/-! ## Scans -/

/-- What has been said and printed stays as it is, but for what a scan prints if it does not print
JSON. -/
def SameOutput (json : Bool) (s t : Session) : Prop :=
  t.output = s.output ∧ (json = true → t.printed = s.printed)

/-- The end of a scan of one project. -/
theorem of_showScan_run {r : Report} {outcome : Option Report}
    (h : (showScan json r >>= fun _ => pure (some r) : Command (Option Report)).run s =
      (.ok outcome, t)) :
    outcome = some r ∧ t.machine = s.machine ∧ t.errors = s.errors ∧ SameOutput json s t := by
  cases json with
  | true =>
    cases h
    exact ⟨rfl, rfl, rfl, rfl, fun _ => rfl⟩
  | false =>
    obtain ⟨_, u, hprint, hend⟩ := exists_run_of_bind h
    rw [showScan, if_neg Bool.false_ne_true] at hprint
    obtain ⟨-, hu⟩ := of_print_run hprint
    cases hend
    rw [hu]
    exact ⟨rfl, rfl, rfl, rfl, nofun⟩

/-- How a scan of one project ends. -/
theorem scanOne_cases {outcome : Option Report}
    (h : (scanOne scan page json p).run s = (.ok outcome, t)) :
    SameOutput json s t ∧
    ((∃ fault, (scan (.ofString p.path)).run s.machine = (.error fault, t.machine) ∧
      outcome = none ∧ ∃ line, t.errors = s.errors ++ outputLine line) ∨
    ∃ r next stored path, (scan (.ofString p.path)).run s.machine = (.ok r, next) ∧
      r.save.run next = (.ok path, stored) ∧
      (if page then ∃ path, (r.savePage (.ofString p.path)).run stored = (.ok path, t.machine)
        else t.machine = stored) ∧
      outcome = some r ∧ t.errors = s.errors) := by
  unfold scanOne at h
  rcases hrun : (scan (.ofString p.path)).run s.machine with ⟨fault | r, next⟩
  · rw [run_bind_ok (attempt_run hrun)] at h
    cases h
    exact ⟨⟨rfl, fun _ => rfl⟩, .inl ⟨fault, rfl, rfl, _, rfl⟩⟩
  · rw [run_bind_ok (attempt_run hrun)] at h
    obtain ⟨path, u, hsave, h⟩ := exists_run_of_bind h
    obtain ⟨hsave, hu⟩ := of_perform_run hsave
    cases page with
    | false =>
      obtain ⟨houtcome, hmachine, herrors, houtput⟩ := of_showScan_run h
      rw [hu] at herrors houtput
      exact ⟨houtput, .inr ⟨r, next, u.machine, path, rfl, hsave, hmachine, houtcome, herrors⟩⟩
    | true =>
      obtain ⟨place, v, hpage, h⟩ := exists_run_of_bind h
      obtain ⟨hpage, hv⟩ := of_perform_run hpage
      obtain ⟨houtcome, hmachine, herrors, houtput⟩ := of_showScan_run h
      rw [hv, hu] at herrors houtput
      refine ⟨houtput, .inr ⟨r, next, u.machine, path, rfl, hsave, ⟨place, ?_⟩, houtcome, herrors⟩⟩
      rw [hpage, hmachine]

/-- **Scans of projects one after the other** have these steps. They only add to the errors, and
nothing if all scans succeed. -/
theorem scanned_of_scanEach {projects : List Project} {reports : List Report}
    (h : (scanEach scan page json projects).run s = (.ok reports, t)) :
    ∃ results, Scanned scan page s.machine projects results t.machine ∧
      reports = results.map Prod.snd ∧ SameOutput json s t ∧
      ∃ lines, t.errors = s.errors ++ lines ∧ (lines = "" → results.map Prod.fst = projects) := by
  induction projects generalizing s reports with
  | nil =>
    cases h
    exact ⟨[], .done _, rfl, ⟨rfl, fun _ => rfl⟩, "", by simp, fun _ => rfl⟩
  | cons p more ih =>
    obtain ⟨first, u, hfirst, h⟩ := exists_run_of_bind h
    obtain ⟨others, v, hothers, h⟩ := exists_run_of_bind h
    obtain ⟨rfl, rfl⟩ : first.toList ++ others = reports ∧ v = t := by
      cases h
      exact ⟨rfl, rfl⟩
    obtain ⟨results, hscanned, rfl, houtput', lines, hlines, hall⟩ := ih hothers
    obtain ⟨houtput, hcases⟩ := scanOne_cases hfirst
    have hsame : SameOutput json s v := ⟨houtput'.1.trans houtput.1,
      fun hjson => (houtput'.2 hjson).trans (houtput.2 hjson)⟩
    -- A scan that fails leaves a line among the errors, so that without lines all projects have
    -- results.
    rcases hcases with ⟨fault, hscan, rfl, line, hline⟩ |
      ⟨r, next, stored, path, hscan, hsave, hpage, rfl, herrors⟩
    · refine ⟨results, .failed hscan hscanned, rfl, hsame, outputLine line ++ lines, ?_, ?_⟩
      · rw [hlines, hline, String.append_assoc]
      · intro hempty
        exact absurd (String.append_eq_empty_iff.1 hempty).1 (outputLine_ne_empty line)
    · refine ⟨(p, r) :: results, .reported hscan hsave hpage hscanned, rfl, hsame, lines, ?_, ?_⟩
      · rw [hlines, herrors]
      · intro hempty
        rw [List.map_cons, hall hempty]

theorem writable_of_reportNumbers {r : Report}
    (h : (reportNumbers r).all Text.Decimal.isWritable = true) :
    r.Writable := by
  simp only [reportNumbers, Finding.lineNumbers, List.all_cons, List.all_append, Bool.and_eq_true,
    List.all_eq_true, List.mem_map, List.mem_filterMap, forall_exists_index, and_imp] at h
  obtain ⟨hduration, hcounts, hlines⟩ := h
  refine ⟨fun f hf n hn => ?_, fun severity => ?_, hduration⟩
  · exact hlines n f hf (by rw [Option.mem_def.1 hn]; rfl)
  · exact hcounts _ severity (by cases severity <;> decide) rfl

/-- **Reports are printed** if all of their numbers can be written. -/
theorem of_reportsText {reports : List Report} {text : String}
    (h : reportsText reports = .ok text) :
    (∀ r ∈ reports, r.Writable) ∧
      text = (Json.array (reports.map Report.toJson)).render .escaped := by
  unfold reportsText withNumbers at h
  split at h
  · rename_i hall
    rw [List.all_flatMap, List.all_eq_true] at hall
    exact ⟨fun r hr => writable_of_reportNumbers (hall r hr), (Except.ok.inj h).symm⟩
  · cases h

/-! ## Runs of the program -/

/-- The command does not end early with the code of success. -/
def Honest (x : Command α) : Prop := ∀ s, (x.run s).1 ≠ .error (.exit 0)

theorem Honest.bind {x : Command α} {f : α → Command β} (hx : Honest x) (hf : ∀ a, Honest (f a)) :
    Honest (x >>= f) := by
  intro s
  rcases hrun : x.run s with ⟨halt | a, t⟩
  · rw [run_bind_error hrun]
    have hhalt := hx s
    rw [hrun] at hhalt
    exact hhalt ∘ fun h => by cases h; rfl
  · rw [run_bind_ok hrun]
    exact hf a t

theorem honest_pure (a : α) : Honest (pure a) := fun _ => nofun

theorem honest_throw {halt : Halt} (h : halt ≠ .exit 0) : Honest (throw halt : Command α) :=
  fun _ hrun => h (Except.error.inj hrun)

theorem honest_complain (line : String) : Honest (complain line) := fun _ => nofun

theorem honest_say (line : String) : Honest (say line) := fun _ => nofun

theorem honest_print (page : Page) : Honest (print page) := by
  intro s
  cases hfault : (s.machine.terminal.display page).fault with
  | none =>
    rw [print_run_ok hfault]
    nofun
  | some fault =>
    rw [print_run_error hfault]
    nofun

theorem honest_need (outcome : Except Fault α) : Honest (need outcome) := by
  cases outcome with
  | ok a => exact honest_pure a
  | error fault => exact honest_throw nofun

theorem honest_perform (action : Action α) : Honest (perform action) := by
  intro s
  rcases hrun : action.run s.machine with ⟨fault | a, m'⟩
  · rw [perform_run_error hrun]
    nofun
  · rw [perform_run_ok hrun]
    nofun

theorem honest_scanTargets (config : Config) (project : Option String) (all : Bool) :
    Honest (scanTargets config project all) := by
  unfold scanTargets
  split
  · exact honest_perform _
  split
  · exact honest_pure _
  · refine (honest_perform _).bind fun found => ?_
    split
    · exact honest_pure _
    · exact (honest_complain _).bind fun _ => honest_throw (by decide)

theorem honest_scanOne (scan : Scan) (page json : Bool) (p : Project) :
    Honest (scanOne scan page json p) := by
  have hattempt : Honest (attempt (scan (.ofString p.path))) := by
    intro s
    rw [attempt_run_eq]
    nofun
  refine hattempt.bind fun outcome => ?_
  cases outcome with
  | error fault => exact (honest_complain _).bind fun _ => honest_pure _
  | ok r =>
    have hshow : Honest (showScan json r) := by
      unfold showScan
      split
      · exact honest_pure ()
      · exact honest_print _
    have hrest : Honest (showScan json r >>= fun _ => pure (some r)) :=
      hshow.bind fun _ => honest_pure _
    refine (honest_perform _).bind fun _ => ?_
    dsimp only
    split
    · exact (honest_perform _).bind fun _ => hrest
    · exact hrest

theorem honest_scanEach (scan : Scan) (page json : Bool) (projects : List Project) :
    Honest (scanEach scan page json projects) := by
  induction projects with
  | nil => exact honest_pure _
  | cons p more ih =>
    exact (honest_scanOne scan page json p).bind fun _ => ih.bind fun _ => honest_pure _

theorem honest_scanProjects (scan : Scan) (project : Option String) (all page json : Bool) :
    Honest (scanProjects scan project all page json) := by
  refine (honest_perform _).bind fun config => (honest_scanTargets config project all).bind ?_
  intro projects
  dsimp only
  split
  · exact (honest_complain _).bind fun _ => honest_throw (by decide)
  · refine (honest_scanEach scan page json projects).bind fun reports => ?_
    unfold showScans
    split
    · exact (honest_need _).bind fun _ => honest_say _
    · exact honest_print _

end Command

/-- The run has been completed, and has printed no errors. -/
def Outcome.isClean : Outcome → Bool
  | .ended code _ errors _ fault => code == 0 && errors == "" && fault == none
  | .misuse => false

theorem Outcome.exists_of_isClean {ended : Outcome × Machine} (h : ended.1.isClean = true) :
    ∃ output printed, ended = (.ended 0 output "" printed none, ended.2) := by
  obtain ⟨outcome, last⟩ := ended
  cases outcome with
  | misuse => cases h
  | ended code output errors printed fault =>
    simp only [isClean, Bool.and_eq_true, beq_iff_eq] at h
    obtain ⟨⟨rfl, rfl⟩, rfl⟩ := h
    exact ⟨output, printed, rfl⟩

/-- A run that ends with the code of success is one of a command that has been completed. -/
theorem exists_session_of_run {scan : Scan} {args : List String} {m last : Machine}
    {invocation : Invocation} {output errors : String} {printed : List Printed}
    (hargs : Invocation.ofArguments? args = some invocation)
    (hhonest : Command.Honest (invocation.command scan))
    (h : run scan args m = (.ended 0 output errors printed none, last)) :
    (invocation.command scan).run { machine := m } =
      (.ok (), { machine := last, output := output, errors := errors, printed := printed }) := by
  rw [run, hargs] at h
  dsimp only at h
  rcases hrun : (invocation.command scan).run { machine := m } with ⟨halt | _, s⟩
  · rw [hrun] at h
    have hcode := hhonest { machine := m }
    rw [hrun] at hcode
    cases halt with
    | exit code =>
      cases h
      exact absurd rfl hcode
    | misuse => cases h
    | fault fault => cases h
  · rw [hrun] at h
    cases h
    rfl

/-- **A run of the program that scans** and ends with the code of success has scanned the projects
that it is about, one after the other. If it has printed no error, it has a report on each of them;
and with JSON it has printed the reports. -/
theorem completes_of_run {scan : Scan} {args : List String} {m last : Machine}
    {target : Option String} {all page json : Bool} {output errors : String}
    {printed : List Printed}
    (hargs : Invocation.ofArguments? args = some (.scan target all page json))
    (h : run scan args m = (.ended 0 output errors printed none, last)) :
    ∃ projects results, Completes scan target all page m projects results last ∧
      (errors = "" → results.map Prod.fst = projects) ∧
      (json = true → printed = [] ∧ ∃ text,
        Command.reportsText (results.map Prod.snd) = .ok text ∧ output = outputLine text) := by
  have hrun := exists_session_of_run hargs
    (Command.honest_scanProjects scan target all page json) h
  obtain ⟨config, s, hload, hrun⟩ := exists_run_of_bind hrun
  obtain ⟨projects, t, htargets, hrun⟩ := exists_run_of_bind hrun
  have hs := Command.eq_of_look_run hload
  have ht := Command.eq_of_scanTargets_run htargets
  subst hs ht
  dsimp only at hrun
  split at hrun
  · cases hrun
  rename_i hempty
  have htargets := (Invocation.targets_of_scanTargets htargets).resolve_left fun hnil =>
    hempty (List.isEmpty_iff.2 hnil)
  obtain ⟨reports, u, hscans, hrun⟩ := exists_run_of_bind hrun
  obtain ⟨results, hscanned, rfl, houtput, lines, hlines, hall⟩ :=
    Command.scanned_of_scanEach hscans
  refine ⟨projects, results, ?_⟩
  have htargets' : ∃ config, Config.load m = .ok config ∧
      Invocation.Targets m config target all projects :=
    ⟨config, Command.of_look_run hload, htargets⟩
  unfold Command.showScans at hrun
  split at hrun
  · rename_i hjson
    obtain ⟨text, v, hneed, hsay⟩ := exists_run_of_bind hrun
    obtain ⟨htext, hv⟩ := Command.of_need_run hneed
    rw [hv, Command.say_run] at hsay
    cases hsay
    refine ⟨⟨htargets', hscanned⟩, fun herrors => hall ?_,
      fun _ => ⟨houtput.2 hjson, text, htext, ?_⟩⟩
    · simpa [herrors] using hlines.symm
    · simp [houtput.1]
  · rename_i hjson
    obtain ⟨-, hu⟩ := Command.of_print_run hrun
    cases hu
    refine ⟨⟨htargets', hscanned⟩, fun herrors => hall ?_, fun hjson' => absurd hjson' hjson⟩
    simpa [herrors] using hlines.symm

/-! ## The machines of the scans -/

namespace Scanned

variable {scanners : List ProjectScanner} {page : Bool} {first m next stored paged last : Machine}
  {p : Project} {r : Report} {path : Path} {projects : List Project}
  {results : List (Project × Report)} {written made : Path → Prop}

theorem alters_of_scan {outcome : Except Fault Report}
    (scan_run : (scanProject scanners (.ofString p.path)).run m = (outcome, next)) :
    m.Alters next written made := by
  have halters := scanProject_alters scanners (.ofString p.path) m written made
  rwa [scan_run] at halters

theorem disk_of_scan {outcome : Except Fault Report}
    (scan_run : (scanProject scanners (.ofString p.path)).run m = (outcome, next)) :
    next.disk = m.disk := by
  have hdisk := scanProject_disk scanners (.ofString p.path) m
  rwa [scan_run] at hdisk

theorem mem_of_result {scan : Scan} (h : Scanned scan page m projects results last)
    (hresult : (p, r) ∈ results) : p ∈ projects := by
  induction h with
  | done => cases hresult
  | failed _ _ ih => exact List.mem_cons_of_mem _ (ih hresult)
  | reported _ _ _ _ ih =>
    rcases List.mem_cons.1 hresult with heq | hresult
    · exact List.mem_cons.2 (.inl (Prod.mk.inj heq).1)
    · exact List.mem_cons_of_mem _ (ih hresult)

/-- A scan of one project that has a report, without its page. -/
theorem of_single {scan : Scan} (h : Scanned scan false m [p] [(p, r)] last) :
    ∃ next path, (scan (.ofString p.path)).run m = (.ok r, next) ∧
      r.save.run next = (.ok path, last) := by
  cases h with
  | failed _ others => cases others
  | reported scan_run save_run page_run others =>
    cases others
    rw [if_neg Bool.false_ne_true] at page_run
    subst page_run
    exact ⟨_, _, scan_run, save_run⟩

/-- What is done about a project alters the machine only as the run may. -/
theorem alters_of_reported (hm : first.Alters m written made)
    (scan_run : (scanProject scanners (.ofString p.path)).run m = (.ok r, next))
    (save_run : r.save.run next = (.ok path, stored))
    (page_run : if page then ∃ path, (r.savePage (.ofString p.path)).run stored = (.ok path, paged)
      else paged = stored)
    (hreport : ∀ q, first.IsReportPath p q → written q)
    (hpage : page = true → written ((Path.ofString p.path).below "SECURITY.md"))
    (hmade : ∀ folder q, first.reportsFolder = .ok folder → q.IsOnWay folder → made q) :
    first.Alters paged written made := by
  have hnext := hm.trans (alters_of_scan scan_run)
  have hstored := Command.alters_save (s := { machine := next }) hm scan_run hnext hreport hmade
  rw [Command.perform_run_ok save_run] at hstored
  refine (hnext.trans hstored).trans ?_
  split at page_run
  · rename_i hupdate
    obtain ⟨path, hrun⟩ := page_run
    have halters := r.alters_savePage (.ofString p.path) stored
    rw [hrun] at halters
    refine halters.mono ?_ fun _ => False.elim
    rintro q rfl
    exact hpage hupdate
  · rw [page_run]
    exact .refl _ _ _

theorem distinct_of_reported (hm : m.disk.Distinct)
    (scan_run : (scanProject scanners (.ofString p.path)).run m = (.ok r, next))
    (save_run : r.save.run next = (.ok path, stored))
    (page_run : if page then ∃ path, (r.savePage (.ofString p.path)).run stored = (.ok path, paged)
      else paged = stored) : paged.disk.Distinct := by
  rw [← disk_of_scan scan_run] at hm
  have hstored := r.distinct_save next hm
  rw [save_run] at hstored
  split at page_run
  · obtain ⟨path, hrun⟩ := page_run
    have hpaged := r.distinct_savePage (.ofString p.path) stored hstored
    rwa [hrun] at hpaged
  · rwa [page_run]

/-- **Each report is made on a machine that the run has altered only as it may**, and where no
folder has two entries of one name. -/
theorem exists_start (h : Scanned (scanProject scanners) page m projects results last)
    (hm : first.Alters m written made) (hdistinct : m.disk.Distinct)
    (hreport : ∀ p ∈ projects, ∀ q, first.IsReportPath p q → written q)
    (hpage : page = true → ∀ p ∈ projects, written ((Path.ofString p.path).below "SECURITY.md"))
    (hmade : ∀ folder q, first.reportsFolder = .ok folder → q.IsOnWay folder → made q)
    (hresult : (p, r) ∈ results) :
    ∃ start next, first.Alters start written made ∧ start.disk.Distinct ∧
      (scanProject scanners (.ofString p.path)).run start = (.ok r, next) := by
  induction h with
  | done => cases hresult
  | failed scan_run _ ih =>
    refine ih (hm.trans (alters_of_scan scan_run)) ?_ ?_ ?_ hresult
    · rwa [disk_of_scan scan_run]
    · exact fun p hp => hreport p (List.mem_cons_of_mem _ hp)
    · exact fun hupdate p hp => hpage hupdate p (List.mem_cons_of_mem _ hp)
  | @reported m _ _ _ _ p' r' _ _ _ scan_run save_run page_run _ ih =>
    rcases List.mem_cons.1 hresult with heq | hresult
    · obtain ⟨rfl, rfl⟩ := Prod.mk.inj heq
      exact ⟨m, _, hm, hdistinct, scan_run⟩
    · refine ih ?_ (distinct_of_reported hdistinct scan_run save_run page_run) ?_ ?_ hresult
      · exact alters_of_reported hm scan_run save_run page_run (hreport p' List.mem_cons_self)
          (fun hupdate => hpage hupdate p' List.mem_cons_self) hmade
      · exact fun p hp => hreport p (List.mem_cons_of_mem _ hp)
      · exact fun hupdate p hp => hpage hupdate p (List.mem_cons_of_mem _ hp)

/-- No folder comes to have two entries of one name. -/
theorem distinct (h : Scanned (scanProject scanners) page m projects results last)
    (hm : m.disk.Distinct) : last.disk.Distinct := by
  induction h with
  | done => exact hm
  | failed scan_run _ ih => exact ih (by rwa [disk_of_scan scan_run])
  | reported scan_run save_run page_run _ ih =>
    exact ih (distinct_of_reported hm scan_run save_run page_run)

end Scanned

/-- Each report of a scan is made on a machine that the scan has altered only as it may. -/
theorem Completes.exists_start {scanners : List ProjectScanner} {target : Option String}
    {all page : Bool} (json : Bool) {m last : Machine} {projects : List Project}
    {results : List (Project × Report)} {p : Project} {r : Report}
    (h : Completes (scanProject scanners) target all page m projects results last)
    (hdistinct : m.disk.Distinct) (hresult : (p, r) ∈ results) :
    ∃ start next, m.Alters start ((Invocation.scan target all page json).Writes m)
        ((Invocation.scan target all page json).Makes m) ∧ start.disk.Distinct ∧
      (scanProject scanners (.ofString p.path)).run start = (.ok r, next) := by
  obtain ⟨config, hload, htargets⟩ := h.targets
  have hscans (p : Project) (hp : p ∈ projects) :
      (Invocation.scan target all page json).Scans m p := htargets.scans hload hp
  refine h.scanned.exists_start (.refl m _ _) hdistinct ?_ ?_ ?_ hresult
  · exact fun p hp q hq => .report (hscans p hp) hq
  · rintro rfl p hp
    exact .page (hscans p hp)
  · exact fun folder q hfolder hq =>
      .reports (hscans p (h.scanned.mem_of_result hresult)) hfolder hq

/-! ## Where scans write -/

theorem Path.Written.slashFree {p : Path} (h : p.Written) : SlashFree p.names :=
  fun name hname => (h name hname).2.2

theorem Path.slashFree_below {p : Path} (h : SlashFree p.names) (s : String) :
    SlashFree (p.below s).names := by
  unfold below join
  split
  · exact h.append (slashFree_ofString s)
  · exact slashFree_ofString s

theorem Machine.slashFree_reportsFolder {m : Machine} {folder : Path}
    (h : m.reportsFolder = .ok folder) : SlashFree folder.names := by
  unfold reportsFolder at h
  dsimp only at h
  split at h
  · obtain ⟨base, hbase, hfolder⟩ := exists_ok_of_bind h
    obtain rfl := Except.ok.inj hfolder
    exact Path.slashFree_below (written_expandHome (Path.written_ofString _) hbase).slashFree _
  · cases hhome : m.home with
    | error fault =>
      rw [hhome] at h
      cases h
    | ok home =>
      rw [hhome] at h
      obtain rfl := Except.ok.inj h
      exact Path.slashFree_below (Path.slashFree_below (written_home hhome).slashFree _) _

/-- A scan writes and makes at paths as they are read from texts. -/
theorem Invocation.slashFree_of_writes {m : Machine} {target : Option String} {all page json : Bool}
    {q : Path} (h : (Invocation.scan target all page json).Writes m q ∨
      (Invocation.scan target all page json).Makes m q) : SlashFree q.names := by
  rcases h with hwrites | hmakes
  · cases hwrites with
    | report _ path =>
      obtain ⟨folder, -, -, r, hfolder, -, -, -, -, rfl⟩ := path
      exact Path.slashFree_below (Machine.slashFree_reportsFolder hfolder) r.fileName
    | page => exact Path.slashFree_below (slashFree_ofString _) "SECURITY.md"
  · cases hmakes with
    | reports _ folder_eq onWay =>
      exact fun name hname =>
        Machine.slashFree_reportsFolder folder_eq name (onWay.2.subset hname)

/-- What a run of the program that scans alters. -/
theorem run_alters_scan {scanners : List ProjectScanner} {args : List String} (m : Machine)
    {target : Option String} {all page json : Bool}
    (hargs : Invocation.ofArguments? args = some (.scan target all page json)) :
    m.Alters (run (scanProject scanners) args m).2
      ((Invocation.scan target all page json).Writes m)
      ((Invocation.scan target all page json).Makes m) := by
  rw [run_machine m hargs]
  exact (Invocation.scan target all page json).command_alters scanners { machine := m }

/-- The path of a project that is scanned ends in a folder. -/
theorem Invocation.Scans.exists_endsIn {m : Machine} {p : Project} {invocation : Invocation}
    (h : invocation.Scans m p) (hd : m.disk.Sound) :
    ∃ root, m.disk.EndsIn (.ofString p.path) root := by
  cases h with
  | all _ workspace discover mem =>
    exact Project.exists_endsIn_of_mem_discover hd workspace discover mem
  | one _ find => exact Project.exists_endsIn_of_find? hd find
  | guarded _ find => exact Project.exists_endsIn_of_find? hd find

/-- **What the report on a project is about**: the folder in which its path ends, before the scan,
and the time. -/
theorem Completes.about {scanners : List ProjectScanner} {target : Option String} {all page : Bool}
    {m last : Machine} {projects : List Project} {results : List (Project × Report)} {p : Project}
    {r : Report} (h : Completes (scanProject scanners) target all page m projects results last)
    (hd : m.disk.Sound) (hresult : (p, r) ∈ results) :
    ∃ place, m.disk.EndsIn (.ofString p.path) place ∧ r.project = Path.name ⟨.root, place⟩ ∧
      m.now = .ok r.scannedAt := by
  obtain ⟨start, next, halters, -, hscan⟩ := h.exists_start false hd.distinct hresult
  obtain ⟨config, hload, htargets⟩ := h.targets
  have hscans : (Invocation.scan target all page false).Scans m p :=
    htargets.scans hload (h.scanned.mem_of_result hresult)
  obtain ⟨place, hplace⟩ := hscans.exists_endsIn hd
  obtain ⟨root, now, hroot, hnow, hproject, htime⟩ := about_of_scanProject hscan
  rw [halters.disk.settled_eq, Disk.settled_of_resolve (hplace.resolve_eq hd)] at hroot
  obtain rfl := Except.ok.inj hroot
  rw [halters.now_eq, ← htime] at hnow
  exact ⟨place, hplace, hproject, hnow⟩

/-! ## A plain project -/

section Plain

open Command Node

/-- The machine with nothing but a plain project. -/
abbrev plainMachine : Machine := rootMachine [plainEntry]

theorem plainMachine_ne_link (names : List String) (target : String) :
    plainMachine.disk.top.find? names ≠ some (.link target) := by
  refine find?_folder_ne_link ?_ names target
  refine List.forall_mem_singleton.2 (find?_folder_ne_link ?_)
  exact List.forall_mem_singleton.2 (find?_file_ne_link [])

theorem sound_plainMachine : plainMachine.disk.Sound where
  named := by
    have hname : IsEntryName "p" ∧ IsEntryName "go.mod" := by
      simp [IsEntryName, IsPlain]
    refine .folder (by simp) (List.forall_mem_singleton.2 hname.1) (List.forall_mem_singleton.2 ?_)
    exact .folder (by simp) (List.forall_mem_singleton.2 hname.2)
      (List.forall_mem_singleton.2 (.file []))
  links names target h := absurd h (plainMachine_ne_link names target)
  straight := .root
  working := ⟨_, rfl⟩

end Plain

end WorkspaceAudit
