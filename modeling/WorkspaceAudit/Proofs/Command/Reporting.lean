import WorkspaceAudit.Proofs.Command.Configure
import WorkspaceAudit.Proofs.Command.Scanning
import WorkspaceAudit.Proofs.Report.Saved

/-!
# Reports after scans

What is printed of a report as JSON by the scan that makes it, and by the command that shows it.

- `Json.parse_outputLine`: a value that is printed can be read from the output.
- `Invocation.ofArguments?_report`, `Invocation.ofArguments?_report_plain`: command lines that ask
  for a report.
- `report_prints_scanned`: the scan prints a list with the report, and the command prints the
  report.
-/

namespace WorkspaceAudit

/-- **A value that is printed on a line can be read from the output.** -/
theorem Json.parse_outputLine {v : Json} (h : v.Faithful Dialect.own.depth) (f : Format) :
    parse .own (outputLine (v.render f)).toList = .ok v := by
  have hclean : Clean (v.render f).toList := by
    rw [render, String.toList_ofList]
    exact h.clean f 0
  have hgap : Gap ['\n'] := by simp [Gap, isGap]
  rw [outputLine_of_clean hclean, String.toList_append, render, String.toList_ofList]
  exact parse_write_append h f hgap

namespace Invocation

/-- A report can be asked for by any name. -/
theorem ofArguments?_report (name : String) :
    ofArguments? ["report", "--json", "--", name] = some (.report name true) := rfl

theorem ofArguments?_report_plain {name : String} (h : Arguments.looksLikeOption name = false) :
    ofArguments? ["report", name, "--json"] = some (.report name true) := by
  have hdashes : (name == "--") = false := by
    rw [beq_eq_false_iff_ne]
    rintro rfl
    cases h
  have hread : Arguments.read? [("--json", false)] [name, "--json"] =
      some { options := [("--json", "")], operands := [name] } := by
    rw [Arguments.read?, hdashes, h]
    rfl
  have hreport : ofArguments? ["report", name, "--json"] =
      Arguments.report? [name, "--json"] := rfl
  rw [hreport, Arguments.report?, hread]
  rfl

end Invocation

namespace Command

variable {r : Report} {name : String} {m : Machine}

theorem run_report {scan : Scan} {args : List String}
    (hargs : Invocation.ofArguments? args = some (.report name true))
    (h : Report.latest? m name = .ok (some r)) :
    run scan args m = (.ended 0 (outputLine r.render) "" [] none, m) := by
  have hcommand : (Invocation.command scan (.report name true)).run { machine := m } =
      (.ok (), { machine := m, output := outputLine r.render }) := by
    rw [Invocation.command, showReport, run_bind_ok (look_run_ok (s := { machine := m }) h)]
    dsimp only
    rw [if_pos rfl, say_run, String.empty_append]
  rw [run, hargs]
  simp only [hcommand]

end Command

/-- **The scan and the command for reports print the same report.** A run of the program that scans
a project, with JSON and without errors, prints a list of one report. If the folder of the reports
can be listed then, and no report of the project in it has a greater name, the command for the
report of that project prints this report. It can be asked for by any name, and without further ado
if the name does not look like an option. -/
theorem report_prints_scanned {args : List String} {target : String} {m last : Machine}
    {output : String} {printed : List Printed}
    (hargs : Invocation.ofArguments? args = some (.scan (some target) false false true))
    (hdisk : m.disk.Sound)
    (hrun : run standardScan args m = (.ended 0 output "" printed none, last)) :
    ∃ p r, Completes standardScan (some target) false false m [p] [(p, r)] last ∧ printed = [] ∧
      Json.parse .own output.toList = .ok (.array [r.toJson]) ∧
      Invocation.ofArguments? ["report", "--json", "--", r.project] =
        some (.report r.project true) ∧
      (Arguments.looksLikeOption r.project = false →
        Invocation.ofArguments? ["report", r.project, "--json"] =
          some (.report r.project true)) ∧
      ∀ folder entries, last.reportsFolder = .ok folder → last.disk.list folder = .ok entries →
        (∀ name ∈ entries.map Prod.fst, Report.isFileNameOf r.project name = true →
          name ≤ r.fileName) →
        ∀ reportArgs, Invocation.ofArguments? reportArgs = some (.report r.project true) →
          ∃ text, run standardScan reportArgs last = (.ended 0 text "" [] none, last) ∧
            Json.parse .own text.toList = .ok r.toJson := by
  obtain ⟨projects, results, hcompletes, hall, hjson⟩ := completes_of_run hargs hrun
  obtain ⟨hprinted, text, htext, houtput⟩ := hjson rfl
  obtain ⟨config, hload, htargets⟩ := hcompletes.targets
  cases htargets with
  | @one _ p find =>
    obtain ⟨⟨p, r⟩, rfl, rfl⟩ := List.map_eq_singleton_iff.1 (hall rfl)
    obtain ⟨hwritables, rfl⟩ := Command.of_reportsText htext
    have hwritable : r.Writable := hwritables r List.mem_cons_self
    obtain ⟨next, path, hscan, hsave⟩ := hcompletes.scanned.of_single
    have hvalid := Report.valid_of_save hscan hsave
    obtain ⟨place, hplace, hproject, -⟩ := hcompletes.about hdisk List.mem_cons_self
    have hname : IsEntryName r.fileName := by
      obtain ⟨hslash, hnul⟩ := hplace.canBeName hdisk
      rw [← hproject] at hslash hnul
      exact Report.isEntryName_fileName hslash hnul
    refine ⟨p, r, hcompletes, hprinted, ?_, Invocation.ofArguments?_report r.project,
      Invocation.ofArguments?_report_plain, ?_⟩
    · rw [houtput]
      exact Json.parse_outputLine
        (Report.faithful_array (List.forall_mem_singleton.2 ⟨hvalid, hwritable⟩)) _
    · intro folder entries hfolder hlist hgreatest reportArgs hreport
      have hlatest := Report.latest?_of_save hsave hvalid hwritable hname hfolder hlist hgreatest
      refine ⟨_, Command.run_report hreport hlatest, ?_⟩
      exact Json.parse_outputLine (Report.faithful_toJson hvalid hwritable) _

section Plain

open Command

/-- A plain project. -/
theorem report_prints_scanned_plain :
    let m₁ := (run standardScan ["scan", "p", "--json"] plainMachine).2
    ∃ (r : Report) (output text : String),
      run standardScan ["scan", "p", "--json"] plainMachine =
        (.ended 0 output "" [] none, m₁) ∧
      Json.parse .own output.toList = .ok (.array [r.toJson]) ∧
      run standardScan ["report", "p", "--json"] m₁ = (.ended 0 text "" [] none, m₁) ∧
      Json.parse .own text.toList = .ok r.toJson := by
  intro m₁
  obtain ⟨hclean, hfolder, hlist, hscan⟩ :
      (run standardScan ["scan", "p", "--json"] plainMachine).1.isClean = true ∧
      m₁.reportsFolder = .ok ⟨.root, ["store", "reports"]⟩ ∧
      (m₁.disk.list ⟨.root, ["store", "reports"]⟩).toOption.map (fun es => es.map Prod.fst) =
        some ["p-1970-01-01.json"] ∧
      ((standardScan ⟨.root, ["p"]⟩).run plainMachine).1.toOption.map
        (fun r => (r.project, r.fileName)) = some ("p", "p-1970-01-01.json") := by
    decide +kernel
  have hargs : Invocation.ofArguments? ["scan", "p", "--json"] =
      some (.scan (some "p") false false true) := rfl
  obtain ⟨output, printed, hrun⟩ := Outcome.exists_of_isClean hclean
  obtain ⟨p, r, hcompletes, rfl, hscanned, -, hargs', hreport⟩ :=
    report_prints_scanned hargs sound_plainMachine hrun
  obtain ⟨hproject, hname⟩ : r.project = "p" ∧ r.fileName = "p-1970-01-01.json" := by
    obtain ⟨next, path, hresult, -⟩ := hcompletes.scanned.of_single
    obtain ⟨config, hload, htargets⟩ := hcompletes.targets
    obtain rfl := Except.ok.inj (load_rootMachine.symm.trans hload)
    cases htargets with
    | one find =>
      obtain rfl := Option.some.inj (Except.ok.inj (find?_rootMachine.symm.trans find))
      have hpath : Path.ofString (Project.plain ⟨.root, ["p"]⟩).path = ⟨.root, ["p"]⟩ := by
        decide +kernel
      rw [hpath] at hresult
      rw [hresult] at hscan
      exact Prod.mk.inj (Option.some.inj hscan)
  cases hentries : m₁.disk.list ⟨.root, ["store", "reports"]⟩ with
  | error fault =>
    rw [hentries] at hlist
    cases hlist
  | ok entries =>
    rw [hentries] at hlist
    have hnames : entries.map Prod.fst = ["p-1970-01-01.json"] := Option.some.inj hlist
    have hread := hargs' (by rw [hproject]; decide)
    obtain ⟨text, hshown, hparse⟩ :=
      hreport _ entries hfolder hentries (by simp [hnames, hname]) _ hread
    rw [hproject] at hshown
    exact ⟨r, output, text, hrun, hscanned, hshown, hparse⟩

/-- Two reports that have been stored, and are not shown: one of a project whose name looks like an
option, and one beside a name with the digits of another script. -/
theorem report_hidden :
    (let m := rootMachine [("-p", .folder [("go.mod", .file [])])]
      let m₁ := (run standardScan ["scan", "./-p", "--json"] m).2
      (run standardScan ["scan", "./-p", "--json"] m).1.isClean = true ∧
        (run standardScan ["report", "-p", "--json"] m₁).1 = .misuse) ∧
    (let m := rootMachine
        [plainEntry, ("store", .folder [("reports", .folder [("p-٠٠٠١-٠١-٠١.json", .file [])])])]
      let m₁ := (run standardScan ["scan", "p", "--json"] m).2
      (run standardScan ["scan", "p", "--json"] m).1.isClean = true ∧
        (run standardScan ["report", "p", "--json"] m₁).1 =
          .ended 0 "No scan report found for p. Run: securedev scan p\n" "" [] none) := by
  decide +kernel

end Plain

end WorkspaceAudit
