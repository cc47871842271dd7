import WorkspaceAudit.Command.Run
import WorkspaceAudit.Proofs.Report.Store
import WorkspaceAudit.Proofs.Workspace.Failing

/-!
# The code with which the guard ends

- `Command.guard_run_of_load_error` and so on: how the guard ends, step by step.
- `Command.Blocks`: there are findings that block; `Command.Breaks`: a step ends in a fault that the
  guard does not catch.
- `code_guard`: the guard ends with code 1 in exactly these cases, and else with code 0.
-/

namespace WorkspaceAudit

namespace Command

variable {α : Type} {s : Session} {m' : Machine} {fault : Fault} {a : α}

/-! ## Steps of commands -/

theorem attempt_run {action : Action α} {outcome : Except Fault α}
    (h : action.run s.machine = (outcome, m')) :
    (attempt action).run s = (.ok outcome, { s with machine := m' }) := by
  unfold attempt
  rw [run_bind_ok (run_get s), h]
  rfl

theorem perform_run_ok {action : Action α} (h : action.run s.machine = (.ok a, m')) :
    (perform action).run s = (.ok a, { s with machine := m' }) := by
  unfold perform
  rw [run_bind_ok (attempt_run h)]
  rfl

theorem perform_run_error {action : Action α} (h : action.run s.machine = (.error fault, m')) :
    (perform action).run s = (.error (.fault fault), { s with machine := m' }) := by
  unfold perform
  rw [run_bind_ok (attempt_run h)]
  rfl

theorem look_run_ok {f : Machine → Except Fault α} (h : f s.machine = .ok a) :
    (look f).run s = (.ok a, s) :=
  perform_run_ok (Action.inspect_run_ok h)

theorem look_run_error {f : Machine → Except Fault α} (h : f s.machine = .error fault) :
    (look f).run s = (.error (.fault fault), s) :=
  perform_run_error (Action.inspect_run_error h)

theorem say_run (line : String) (s : Session) :
    (say line).run s = (.ok (), { s with output := s.output ++ outputLine line }) := rfl

theorem complain_run (line : String) (s : Session) :
    (complain line).run s = (.ok (), { s with errors := s.errors ++ outputLine line }) := rfl

theorem print_run_ok {page : Page} (h : (s.machine.terminal.display page).fault = none) :
    (print page).run s =
      (.ok (), { s with printed := s.printed ++ (s.machine.terminal.display page).items }) := by
  unfold print
  rw [run_bind_ok (run_get s)]
  dsimp only
  rw [h]
  rfl

theorem print_run_error {page : Page} (h : (s.machine.terminal.display page).fault = some fault) :
    (print page).run s =
      (.error (.fault fault),
        { s with printed := s.printed ++ (s.machine.terminal.display page).items }) := by
  unfold print
  rw [run_bind_ok (run_get s)]
  dsimp only
  rw [h]
  rfl

theorem exists_complain_run (lines : List String) (s : Session) :
    ∃ s', (lines.forM complain).run s = (.ok (), s') := by
  induction lines generalizing s with
  | nil => exact ⟨s, rfl⟩
  | cons line lines ih =>
    have hcons : (line :: lines).forM complain = complain line >>= fun _ => lines.forM complain :=
      rfl
    rw [hcons, run_bind_ok (complain_run line s)]
    exact ih _

/-- The level of an option that is a level. -/
def chosenLevel (blockOn : Option String) : Option BlockLevel :=
  blockOn.bind fun text => (BlockLevel.ofText text).toOption

theorem level?_run {blockOn : Option String}
    (h : ∀ text ∈ blockOn, ∃ level, BlockLevel.ofText text = .ok level) (s : Session) :
    (level? blockOn).run s = (.ok (chosenLevel blockOn), s) := by
  cases blockOn with
  | none => rfl
  | some text =>
    obtain ⟨level, hlevel⟩ := h text rfl
    simp only [level?, hlevel, chosenLevel, Option.bind_some, Except.toOption]
    rfl

/-! ## Steps of the guard -/

section Guard

variable {scan : Scan} {project : String} {before : Bool} {blockOn : Option String}
  {config : Config} {p : Project} {report : Report} {m : Machine}

theorem guard_run_of_load_error (hload : Config.load m = .error fault) :
    ((guard scan project before blockOn).run { machine := m }).1 = .error (.fault fault) := by
  rw [guard, run_bind_error (look_run_error (s := { machine := m }) hload)]

variable (hload : Config.load m = .ok config)
  (hlevel : ∀ text ∈ blockOn, ∃ level, BlockLevel.ofText text = .ok level)

include hload hlevel

theorem guard_run_of_find?_error (hfind : Project.find? m config project = .error fault) :
    ((guard scan project before blockOn).run { machine := m }).1 = .error (.fault fault) := by
  rw [guard, run_bind_ok (look_run_ok (s := { machine := m }) hload),
    run_bind_ok (level?_run hlevel _),
    run_bind_error (look_run_error (s := { machine := m }) hfind)]

theorem guard_run_of_find?_none (hfind : Project.find? m config project = .ok none) :
    ((guard scan project before blockOn).run { machine := m }).1 = .error (.exit 0) := by
  rw [guard, run_bind_ok (look_run_ok (s := { machine := m }) hload),
    run_bind_ok (level?_run hlevel _), run_bind_ok (look_run_ok (s := { machine := m }) hfind)]
  rfl

variable (hfind : Project.find? m config project = .ok (some p))

include hfind

theorem guard_run_of_scan_error (hscan : (scan (.ofString p.path)).run m = (.error fault, m')) :
    ((guard scan project before blockOn).run { machine := m }).1 = .error (.exit 0) := by
  rw [guard, run_bind_ok (look_run_ok (s := { machine := m }) hload),
    run_bind_ok (level?_run hlevel _), run_bind_ok (look_run_ok (s := { machine := m }) hfind)]
  dsimp only
  rw [run_bind_ok (say_run _ _), run_bind_ok (attempt_run (s := ⟨m, _, _, _⟩) hscan)]
  rfl

variable (hscan : (scan (.ofString p.path)).run m = (.ok report, m'))

include hscan

theorem guard_run_of_save_error {m'' : Machine}
    (hsave : report.save.run m' = (.error fault, m'')) :
    ((guard scan project before blockOn).run { machine := m }).1 = .error (.fault fault) := by
  rw [guard, run_bind_ok (look_run_ok (s := { machine := m }) hload),
    run_bind_ok (level?_run hlevel _), run_bind_ok (look_run_ok (s := { machine := m }) hfind)]
  dsimp only
  rw [run_bind_ok (say_run _ _), run_bind_ok (attempt_run (s := ⟨m, _, _, _⟩) hscan)]
  dsimp only
  rw [run_bind_error (perform_run_error (s := ⟨m', _, _, _⟩) hsave)]

theorem guard_run_of_save_ok {m'' : Machine} {path : Path}
    (hsave : report.save.run m' = (.ok path, m'')) :
    ((guard scan project before blockOn).run { machine := m }).1 =
      if (report.blocking ((chosenLevel blockOn).getD config.blockOn).severity).isEmpty then .ok ()
      else .error (.exit 1) := by
  rw [guard, run_bind_ok (look_run_ok (s := { machine := m }) hload),
    run_bind_ok (level?_run hlevel _), run_bind_ok (look_run_ok (s := { machine := m }) hfind)]
  dsimp only
  rw [run_bind_ok (say_run _ _), run_bind_ok (attempt_run (s := ⟨m, _, _, _⟩) hscan)]
  dsimp only
  rw [run_bind_ok (perform_run_ok (s := ⟨m', _, _, _⟩) hsave)]
  split
  · rfl
  · obtain ⟨s', hlines⟩ := exists_complain_run _ _
    rw [run_bind_ok hlines]
    rfl

end Guard

/-! ## Codes -/

/-- There are findings that block: the project is found, its scan gives a report, and some finding
of the report is at least as severe as the level of the option or else of the settings. -/
def Blocks (scan : Scan) (m : Machine) (project : String) (blockOn : Option String) : Prop :=
  ∃ config p report m', Config.load m = .ok config ∧
    Project.find? m config project = .ok (some p) ∧
    (scan (.ofString p.path)).run m = (.ok report, m') ∧
    ∃ f ∈ report.findings,
      f.severity.rank ≤ ((chosenLevel blockOn).getD config.blockOn).severity.rank

/-- A step outside the scan ends in a fault. -/
inductive Breaks (scan : Scan) (m : Machine) (project : String) : Prop where
  | settings (h : Config.Broken m)
  | search {config : Config} (hload : Config.load m = .ok config)
      (h : Project.Unsearchable m config project)
  | store {config : Config} {p : Project} {report : Report} {m' m'' : Machine} {fault : Fault}
      (hload : Config.load m = .ok config) (hfind : Project.find? m config project = .ok (some p))
      (hscan : (scan (.ofString p.path)).run m = (.ok report, m'))
      (hsave : report.save.run m' = (.error fault, m''))

/-- The code of the end of a command. -/
def endCode : Except Halt Unit → Nat
  | .ok _ => 0
  | .error (.exit code) => code
  | .error .misuse => 2
  | .error (.fault _) => 1

theorem code_run {scan : Scan} {args : List String} {m : Machine} {invocation : Invocation}
    (hargs : Invocation.ofArguments? args = some invocation) :
    (WorkspaceAudit.run scan args m).1.code =
      endCode ((invocation.command scan).run { machine := m }).1 := by
  rw [WorkspaceAudit.run, hargs]
  dsimp only
  rcases (invocation.command scan).run { machine := m } with ⟨halt | _, s⟩
  · cases halt <;> rfl
  · rfl

theorem isEmpty_blocking_eq_false_iff {report : Report} {level : Severity} :
    (report.blocking level).isEmpty = false ↔
      ∃ f ∈ report.findings, f.severity.rank ≤ level.rank := by
  rw [List.isEmpty_eq_false_iff_exists_mem]
  simp [Report.blocking, List.mem_filter]

/-- Once the settings are read and the search is over, there is a report if code 1 is due, and it
blocks or cannot be stored. -/
theorem exists_report {scan : Scan} {m : Machine} {project : String} {blockOn : Option String}
    {config : Config} {found : Option Project} (hload : Config.load m = .ok config)
    (hfind : Project.find? m config project = .ok found)
    (h : Blocks scan m project blockOn ∨ Breaks scan m project) :
    ∃ p report m', found = some p ∧ (scan (.ofString p.path)).run m = (.ok report, m') ∧
      ((∃ f ∈ report.findings,
          f.severity.rank ≤ ((chosenLevel blockOn).getD config.blockOn).severity.rank) ∨
        ∃ fault m'', report.save.run m' = (.error fault, m'')) := by
  rcases h with ⟨config', p, report, m', hload', hfind', hscan, hblocks⟩ | hbreaks
  · obtain rfl := Except.ok.inj (hload.symm.trans hload')
    exact ⟨p, report, m', Except.ok.inj (hfind.symm.trans hfind'), hscan, .inl hblocks⟩
  · cases hbreaks with
    | settings hbroken =>
      obtain ⟨fault, hfault⟩ := Config.fails_load_iff.2 hbroken
      rw [hload] at hfault
      cases hfault
    | search hload' hunsearchable =>
      obtain rfl := Except.ok.inj (hload.symm.trans hload')
      obtain ⟨fault, hfault⟩ := Project.fails_find?_iff.2 hunsearchable
      rw [hfind] at hfault
      cases hfault
    | store hload' hfind' hscan hsave =>
      obtain rfl := Except.ok.inj (hload.symm.trans hload')
      exact ⟨_, _, _, Except.ok.inj (hfind.symm.trans hfind'), hscan, .inr ⟨_, _, hsave⟩⟩

section Code

variable {scan : Scan} {m : Machine} {project : String} {before : Bool} {blockOn : Option String}

/-- The guard ends with code 1 where it has to, and else with code 0. -/
def EndsRightly (scan : Scan) (m : Machine) (project : String) (before : Bool)
    (blockOn : Option String) : Prop :=
  (Blocks scan m project blockOn ∨ Breaks scan m project →
    endCode ((guard scan project before blockOn).run { machine := m }).1 = 1) ∧
  (¬(Blocks scan m project blockOn ∨ Breaks scan m project) →
    endCode ((guard scan project before blockOn).run { machine := m }).1 = 0)

theorem endsRightly_of_one (h : Blocks scan m project blockOn ∨ Breaks scan m project)
    (hcode : endCode ((guard scan project before blockOn).run { machine := m }).1 = 1) :
    EndsRightly scan m project before blockOn :=
  ⟨fun _ => hcode, fun hnot => absurd h hnot⟩

theorem endsRightly_of_zero (h : ¬(Blocks scan m project blockOn ∨ Breaks scan m project))
    (hcode : endCode ((guard scan project before blockOn).run { machine := m }).1 = 0) :
    EndsRightly scan m project before blockOn :=
  ⟨fun h' => absurd h' h, fun _ => hcode⟩

/-- The end of the guard once the project is found. -/
theorem endsRightly_of_found {config : Config} {p : Project} (hload : Config.load m = .ok config)
    (hlevel : ∀ text ∈ blockOn, ∃ level, BlockLevel.ofText text = .ok level)
    (hfind : Project.find? m config project = .ok (some p)) :
    EndsRightly scan m project before blockOn := by
  rcases hscan : (scan (.ofString p.path)).run m with ⟨fault | report, m'⟩
  · -- The scan fails: there is no report that could block.
    refine endsRightly_of_zero (fun h => ?_) ?_
    · obtain ⟨p, report, m', hp, hreport, -⟩ := exists_report hload hfind h
      obtain rfl := Option.some.inj hp
      rw [hscan] at hreport
      cases hreport
    · rw [guard_run_of_scan_error hload hlevel hfind hscan]
      rfl
  · rcases hsave : report.save.run m' with ⟨fault | path, m''⟩
    · -- The report cannot be stored.
      refine endsRightly_of_one (.inr (.store hload hfind hscan hsave)) ?_
      rw [guard_run_of_save_error hload hlevel hfind hscan hsave]
      rfl
    · -- The report is stored, and what blocks in it decides.
      have hend : ((guard scan project before blockOn).run { machine := m }).1 = _ :=
        guard_run_of_save_ok hload hlevel hfind hscan hsave
      cases hempty : (report.blocking _).isEmpty with
      | false =>
        rw [hempty] at hend
        refine endsRightly_of_one (.inl ⟨config, p, report, m', hload, hfind, hscan, ?_⟩) ?_
        · exact isEmpty_blocking_eq_false_iff.1 hempty
        · rw [hend]
          rfl
      | true =>
        rw [hempty] at hend
        refine endsRightly_of_zero (fun h => ?_) ?_
        · obtain ⟨p, report, m', hp, hreport, hone⟩ := exists_report hload hfind h
          obtain rfl := Option.some.inj hp
          obtain ⟨hok, rfl⟩ := Prod.mk.inj (hscan.symm.trans hreport)
          obtain rfl := Except.ok.inj hok
          rcases hone with hblocks | ⟨fault, m'', hfault⟩
          · rw [isEmpty_blocking_eq_false_iff.2 hblocks] at hempty
            cases hempty
          · rw [hsave] at hfault
            cases hfault
        · rw [hend]
          rfl

theorem endsRightly (hlevel : ∀ text ∈ blockOn, ∃ level, BlockLevel.ofText text = .ok level) :
    EndsRightly scan m project before blockOn := by
  cases hload : Config.load m with
  | error fault =>
    refine endsRightly_of_one (.inr (.settings (Config.fails_load_iff.1 ⟨fault, hload⟩))) ?_
    rw [guard_run_of_load_error hload]
    rfl
  | ok config =>
    cases hfind : Project.find? m config project with
    | error fault =>
      have hsearch := Project.fails_find?_iff.1 ⟨fault, hfind⟩
      refine endsRightly_of_one (.inr (.search hload hsearch)) ?_
      rw [guard_run_of_find?_error hload hlevel hfind]
      rfl
    | ok found =>
      cases found with
      | some p => exact endsRightly_of_found hload hlevel hfind
      | none =>
        refine endsRightly_of_zero (fun h => ?_) ?_
        · obtain ⟨p, -, -, hp, -⟩ := exists_report hload hfind h
          cases hp
        · rw [guard_run_of_find?_none hload hlevel hfind]
          rfl

end Code

/-- **The guard ends with code 1 if there are findings that block or a step ends in a fault, and
else with code 0**, whatever is on the disk and whichever project is asked for. -/
theorem code_guard {scan : Scan} {args : List String} {m : Machine} {project : String}
    {before : Bool} {blockOn : Option String}
    (hargs : Invocation.ofArguments? args = some (.guard project before blockOn))
    (hlevel : ∀ text ∈ blockOn, ∃ level, BlockLevel.ofText text = .ok level) :
    (Blocks scan m project blockOn ∨ Breaks scan m project →
      (WorkspaceAudit.run scan args m).1.code = 1) ∧
    (¬(Blocks scan m project blockOn ∨ Breaks scan m project) →
      (WorkspaceAudit.run scan args m).1.code = 0) := by
  rw [code_run hargs]
  exact endsRightly hlevel

/-- A machine with entries in its root, where the settings and the store are. -/
def rootMachine (entries : List (String × Node)) : Machine where
  disk := { top := .folder entries, here := [] }
  environment := [("SECUREDEV_CONFIG", "/settings"), ("SECUREDEV_HOME", "/store")]
  clock := ⟨0, true⟩
  readings := []

/-- A project without a manifest. -/
def plainEntry : String × Node := ("p", .folder [("go.mod", .file [])])

/-- A folder with a manifest. -/
def manifestEntry (text : String) : String × Node :=
  ("q", .folder [(".ai", .folder [("handoff", .folder
    [("MANIFEST.json", .file (Text.Utf8.encode text.toList))])])])

theorem not_blocks_of_findings {report : Report} (h : report.findings = []) (m : Machine)
    (project : String) (blockOn : Option String) :
    ¬Blocks (fun _ => pure report) m project blockOn := by
  rintro ⟨config, p, found, m', -, -, hscan, f, hf, -⟩
  obtain ⟨hok, -⟩ := Prod.mk.inj ((run_pure report m).symm.trans hscan)
  rw [← Except.ok.inj hok, h] at hf
  cases hf

theorem load_rootMachine : Config.load (rootMachine [plainEntry]) = .ok {} := by
  decide +kernel

theorem find?_rootMachine :
    Project.find? (rootMachine [plainEntry]) {} "p" =
      .ok (some (Project.plain ⟨.root, ["p"]⟩)) := by
  decide +kernel

/-- One finding blocks; the level is written in small letters. -/
theorem code_guard_high :
    let finding : Finding :=
      { scanner := .secrets, severity := .high, title := "t", description := "d" }
    let scan : Scan := fun _ => pure { Report.specimen "p" 0 0 with findings := [finding] }
    (WorkspaceAudit.run scan ["guard", "--project", "p", "--block-on", "high"]
      (rootMachine [plainEntry])).1.code = 1 := by
  intro finding scan
  have hargs : Invocation.ofArguments? ["guard", "--project", "p", "--block-on", "high"] =
      some (.guard "p" false (some "high")) := by decide +kernel
  have hlevel : ∀ text ∈ some "high", ∃ level, BlockLevel.ofText text = .ok level := by
    rintro text ⟨⟩
    exact ⟨.high, by decide +kernel⟩
  refine (code_guard hargs hlevel).1 (.inl ?_)
  exact ⟨{}, _, _, _, load_rootMachine, find?_rootMachine, run_pure _ _, finding,
    List.mem_cons_self, by decide +kernel⟩

/-- Three runs without findings that end with code 1: the settings are no text, another folder has
a manifest with a list for its last session, or a file is where the store has to be. -/
theorem code_guard_uncaught :
    let scan : Scan := fun _ => pure (Report.specimen "p" 0 0)
    ∀ m ∈ [rootMachine [plainEntry, ("settings", .file [0xff])],
        rootMachine [plainEntry, manifestEntry "\x7b\"last_session\": [1]\x7d"],
        rootMachine [plainEntry, ("store", .file [])]],
      ¬Blocks scan m "p" none ∧
        (WorkspaceAudit.run scan ["guard", "--project", "p"] m).1.code = 1 := by
  intro scan m hm
  refine ⟨not_blocks_of_findings rfl m "p" none, ?_⟩
  have hargs : Invocation.ofArguments? ["guard", "--project", "p"] =
      some (.guard "p" false none) := by decide +kernel
  have hlevel : ∀ text ∈ none, ∃ level, BlockLevel.ofText text = .ok level := by simp
  rw [code_run hargs, Invocation.command]
  simp only [List.mem_cons, List.not_mem_nil, or_false] at hm
  -- One fault before the project is searched for, one in the search, and one after the scan.
  rcases hm with rfl | rfl | rfl
  · have hload : Config.load (rootMachine [plainEntry, ("settings", .file [0xff])]) =
        .error .undecodable := by decide +kernel
    rw [guard_run_of_load_error hload]
    rfl
  · have hload : Config.load
        (rootMachine [plainEntry, manifestEntry "\x7b\"last_session\": [1]\x7d"]) = .ok {} := by
      decide +kernel
    have hfind : Project.find?
        (rootMachine [plainEntry, manifestEntry "\x7b\"last_session\": [1]\x7d"]) {} "p" =
          .error .noMembers := by
      decide +kernel
    rw [guard_run_of_find?_error hload hlevel hfind]
    rfl
  · have hload : Config.load (rootMachine [plainEntry, ("store", .file [])]) = .ok {} := by
      decide +kernel
    have hfind : Project.find? (rootMachine [plainEntry, ("store", .file [])]) {} "p" =
        .ok (some (Project.plain ⟨.root, ["p"]⟩)) := by
      decide +kernel
    have hfolder : (rootMachine [plainEntry, ("store", .file [])]).reportsFolder =
        .ok ⟨.root, ["store", "reports"]⟩ := rfl
    have hmake : (rootMachine [plainEntry, ("store", .file [])]).disk.makeFolder
        ⟨.root, ["store", "reports"]⟩ = .error .notFolder := rfl
    have hsave := Report.save_run_of_makeFolders_error (Report.specimen "p" 0 0) hfolder
      (Disk.makeFolders_of_error hmake nofun (by simp))
    rw [guard_run_of_save_error hload hlevel hfind (run_pure _ _) hsave]
    rfl

end Command

end WorkspaceAudit
