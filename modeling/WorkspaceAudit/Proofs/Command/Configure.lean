import WorkspaceAudit.Proofs.Command.Guard
import WorkspaceAudit.Proofs.Pattern.Hits
import WorkspaceAudit.Proofs.Workspace.Settings

/-!
# Showing and changing the settings

- `outputLine_of_clean`: a line without control characters is printed as it is.
- `Command.configure_run_show`, `Command.configure_run_misuse`, `Command.configure_run_save`: how
  the command for the settings ends.
- `Command.configure_keeps`: settings that are stored are loaded again; the command shows them
  without a change, changes what it is asked to change and nothing else, or changes nothing.
-/

namespace WorkspaceAudit

/-- A text without control characters is printed as it is. -/
theorem outputLine_of_clean {s : String} (h : Json.Clean s.toList) : outputLine s = s ++ "\n" := by
  have hnone : Pattern.colorCode.found s.toList = false := by
    rw [← Bool.not_eq_true, Pattern.found_iff]
    rintro ⟨pre, w, post, htext, hspans⟩
    obtain ⟨u, v, rfl, hu, -⟩ := Pattern.spans_chain_cons.1 hspans
    have hescape : '\x1b' ∈ s.toList := by
      rw [htext, Pattern.spans_lit_iff.1 hu]
      simp
    exact absurd (h _ hescape) (by decide)
  rw [outputLine, Pattern.erase, Pattern.findAll_eq_nil_iff.2 hnone, Pattern.between,
    String.ofList_toList]

namespace Command

/-- What an option for a level gives: nothing if it is missing, and else the level whose name is its
text in capital letters. -/
inductive GivesLevel : Option String → Option BlockLevel → Prop where
  | missing : GivesLevel none none
  | level {text : String} {level : BlockLevel}
      (h : text.toList.map Text.capitalLatin = level.name.toList) :
      GivesLevel (some text) (some level)

/-- Settings with the fields that are given replaced. -/
def replaced (c : Config) (workspace : Option String) (level : Option BlockLevel) : Config :=
  { c with
    workspaceRoot := workspace.or c.workspaceRoot
    blockOn := level.getD c.blockOn }

variable {m m' : Machine} {c : Config} {workspace blockOn : Option String}
  {level : Option BlockLevel} {path : Path}

theorem GivesLevel.run_eq (h : GivesLevel blockOn level) (s : Session) :
    (level? blockOn).run s = (.ok level, s) := by
  cases h with
  | missing => rfl
  | level h =>
    rw [level?, BlockLevel.ofText_eq_ok_iff.2 h]
    rfl

theorem level?_run_misuse (h : ∀ level, ¬GivesLevel blockOn level) (s : Session) :
    (level? blockOn).run s = (.error .misuse, s) := by
  cases blockOn with
  | none => exact absurd .missing (h none)
  | some text =>
    cases hlevel : BlockLevel.ofText text with
    | error fault =>
      simp only [level?, hlevel]
      rfl
    | ok level => exact absurd (.level (BlockLevel.ofText_eq_ok_iff.1 hlevel)) (h (some level))

theorem configure_run_show (hload : Config.load m = .ok c) :
    (configure workspace blockOn true).run { machine := m } =
      (.ok (), { machine := m, output := c.render ++ "\n" }) := by
  rw [configure, run_bind_ok (look_run_ok (s := { machine := m }) hload), if_pos rfl, say_run,
    outputLine_of_clean c.clean_render, String.empty_append]

theorem configure_run_misuse (hload : Config.load m = .ok c)
    (hlevel : ∀ level, ¬GivesLevel blockOn level) :
    (configure workspace blockOn false).run { machine := m } =
      (.error .misuse, { machine := m }) := by
  rw [configure, run_bind_ok (look_run_ok (s := { machine := m }) hload),
    if_neg Bool.false_ne_true, run_bind_error (level?_run_misuse hlevel _)]

theorem configure_run_save (hload : Config.load m = .ok c) (hlevel : GivesLevel blockOn level)
    (hsave : (replaced c workspace level).save.run m = (.ok path, m')) :
    (configure workspace blockOn false).run { machine := m } =
      (.ok (), { machine := m', output := outputLine ("Config saved to " ++ path.text) }) := by
  have hchanged : replaced c workspace level =
      { c with
        workspaceRoot := workspace.orElse fun _ => c.workspaceRoot
        blockOn := level.getD c.blockOn } := by
    cases workspace <;> rfl
  rw [hchanged] at hsave
  rw [configure, run_bind_ok (look_run_ok (s := { machine := m }) hload),
    if_neg Bool.false_ne_true, run_bind_ok (hlevel.run_eq _),
    run_bind_ok (perform_run_ok (s := { machine := m }) hsave), say_run, String.empty_append]

/-- **Settings are kept, and only what is asked for is changed.** Settings that have been stored are
loaded again, whatever they are, and whether they can be stored does not depend on what they are.
Where settings are stored, the command for the settings shows them in a text that holds them and
leaves the machine as it is, if it is to show them, whatever its other options are. Else, if its
option for a level is missing or gives a level, it stores them with the given fields replaced. Else
it is misuse, and the machine stays as it is. -/
theorem configure_keeps (scan : Scan) (m : Machine) (c : Config) :
    (∀ other : Config, (c.save.run m).1 = (other.save.run m).1) ∧
    (∀ path m', c.save.run m = (.ok path, m') → Config.load m' = .ok c) ∧
    ∀ args workspace blockOn display,
      Invocation.ofArguments? args = some (.config workspace blockOn display) → c.Stored m →
      (display = true →
        WorkspaceAudit.run scan args m = (.ended 0 (c.render ++ "\n") "" [] none, m) ∧
        Checked.ofText Config.check (c.render ++ "\n").toList = .ok c) ∧
      (display = false → ∀ level, GivesLevel blockOn level → ∃ path m',
        WorkspaceAudit.run scan args m =
          (.ended 0 (outputLine ("Config saved to " ++ path.text)) "" [] none, m') ∧
        m.configPath = .ok path ∧ Config.load m' = .ok (replaced c workspace level)) ∧
      (display = false → (∀ level, ¬GivesLevel blockOn level) →
        WorkspaceAudit.run scan args m = (.misuse, m) ∧ Outcome.misuse.code = 2) := by
  refine ⟨fun other => c.save_outcome other m,
    fun path m' hsave => Config.load_of_stored (Config.stored_of_save hsave), ?_⟩
  intro args workspace blockOn display hargs hstored
  have hload := Config.load_of_stored hstored
  have hend {s : Session} {outcome : Except Halt Unit}
      (hrun : (configure workspace blockOn display).run { machine := m } = (outcome, s)) :
      ((Invocation.config workspace blockOn display).command scan).run { machine := m } =
        (outcome, s) := hrun
  refine ⟨?_, ?_, ?_⟩
  · rintro rfl
    have hgap : Json.Gap ['\n'] := by simp [Json.Gap, Json.isGap]
    rw [String.toList_append]
    refine ⟨?_, c.ofText_render hgap⟩
    simp only [WorkspaceAudit.run, hargs, hend (configure_run_show hload)]
  · rintro rfl level hlevel
    obtain ⟨path, m', hsave⟩ := Config.save_of_stored hstored (replaced c workspace level)
    refine ⟨path, m', ?_, Config.configPath_of_save hsave,
      Config.load_of_stored (Config.stored_of_save hsave)⟩
    simp only [WorkspaceAudit.run, hargs, hend (configure_run_save hload hlevel hsave)]
  · rintro rfl hlevel
    refine ⟨?_, rfl⟩
    simp only [WorkspaceAudit.run, hargs, hend (configure_run_misuse hload hlevel)]

/-- Settings in a file that was written by hand: they are shown, changed in one field, and left
alone. -/
theorem configure_keeps_edited :
    let text := "\x7b\"exclude_projects\": [\"\\u00e9\"], \"theme\": 1\x7d"
    let m := rootMachine [("settings", .file (Text.Utf8.encode text.toList))]
    let c : Config := { excluded := ["é"] }
    c.Stored m ∧
    (WorkspaceAudit.run standardScan ["config", "--block-on", "no", "--show"] m).2 = m ∧
    Config.load (WorkspaceAudit.run standardScan ["config", "--block-on", "hIgh"] m).2 =
      .ok { excluded := ["é"], blockOn := .high } ∧
    WorkspaceAudit.run standardScan ["config", "--workspace", "/w", "--block-on", "no"] m =
      (.misuse, m) := by
  intro text m c
  -- Equality is not decidable for the problems of a check, and so an option is compared first.
  have hread : (Checked.ofText Config.check text.toList).toOption = some c := by decide +kernel
  have hcheck : Checked.ofText Config.check text.toList = .ok c := by
    cases h : Checked.ofText Config.check text.toList with
    | error problems => simp [h, Except.toOption] at hread
    | ok config => simpa [h, Except.toOption] using hread
  have hstored : c.Stored m := by
    refine ⟨⟨.root, ["settings"]⟩, text.toList, rfl, ?_, hcheck⟩
    exact ⟨_, rfl, _, Text.Utf8.decode?_encode _, by decide +kernel⟩
  obtain ⟨-, -, hcommand⟩ := configure_keeps standardScan m c
  refine ⟨hstored, ?_, ?_, ?_⟩
  · obtain ⟨hshow, -, -⟩ := hcommand ["config", "--block-on", "no", "--show"] none (some "no") true
      (by decide +kernel) hstored
    rw [(hshow rfl).1]
  · obtain ⟨-, hsave, -⟩ := hcommand ["config", "--block-on", "hIgh"] none (some "hIgh") false
      (by decide +kernel) hstored
    obtain ⟨path, m', hrun, -, hload⟩ := hsave rfl (some .high) (.level (by decide))
    rw [hrun, hload]
    rfl
  · obtain ⟨-, -, hmisuse⟩ := hcommand ["config", "--workspace", "/w", "--block-on", "no"]
      (some "/w") (some "no") false (by decide +kernel) hstored
    refine (hmisuse rfl ?_).1
    rintro _ (_ | ⟨h⟩)
    rename_i level
    revert h
    cases level <;> decide

end Command

end WorkspaceAudit
