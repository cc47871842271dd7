import WorkspaceAudit.Proofs.Report.Score
import WorkspaceAudit.Proofs.Scan.Survivors
import WorkspaceAudit.Scan.Files

/-!
# Findings in test data

What is found in test data stays visible, but costs no points.

- `RuleSet.reportEach_eq`: one pass over the matches of a rule reports its survivors.
- `RuleSet.scanContent_eq_scanAs`: the two ways to scan a text find the same.
- `RuleSet.scanAs_true`: the matches that are reported do not depend on the mark.
- `RuleSet.score_scanFiles`: files with test data could have been left out of a scan as far as
  points go.
- `RuleSet.scanContent_isFixture`: all of this for a text and for files.
-/

namespace WorkspaceAudit

namespace RuleSet

variable {set : RuleSet} {path : String} {content : List Char}

/-! ## One pass over the matches -/

/-- A pass with a counter reports the survivors for the room that is left. -/
theorem reportEach_eq (fixture : Bool) (reported : Nat) (cs : List Candidate) :
    set.reportEach fixture reported cs =
      (survivors (set.cap - reported) (cs.map fun c => (c, judge set.stages c))).map
        fun j => (set.finding j.1 j.2).marked fixture := by
  induction cs generalizing reported with
  | nil => cases set.cap - reported <;> rfl
  | cons c more ih =>
    by_cases hfull : set.cap ≤ reported
    · have hroom : set.cap - reported = 0 := by omega
      simp [reportEach, hfull, hroom, survivors]
    · obtain ⟨room, hroom⟩ : ∃ room, set.cap - reported = room + 1 :=
        ⟨set.cap - (reported + 1), by omega⟩
      have hless : set.cap - (reported + 1) = room := by omega
      rw [reportEach, if_neg hfull, List.map_cons, hroom]
      cases hjudge : judge set.stages c with
      | drop =>
        dsimp only
        rw [survivors, ih, hroom]
      | restate words =>
        dsimp only
        rw [survivors, ih, hroom, List.map_cons]
      | pass =>
        dsimp only
        rw [survivors, ih, hless, List.map_cons]

/-- **A scan of a text marks each finding as it goes**, if the text is test data. -/
theorem scanContent_eq_scanAs (set : RuleSet) (path : String) (content : List Char) :
    set.scanContent path content = set.scanAs (isFixture path content) path content := by
  by_cases hcontent : content = []
  · subst hcontent
    rfl
  · have hempty : content.isEmpty = false := by simpa using hcontent
    rw [scanContent_eq_flatMap hcontent, scanAs, hempty, if_neg Bool.false_ne_true]
    congr 1
    funext rule
    rw [reportEach_eq, Rule.candidates, List.map_map, Nat.sub_zero]
    rfl

/-- **The mark changes no finding but itself**: neither the choice of the matches nor where they are
cut off. -/
theorem scanAs_true (set : RuleSet) (path : String) (content : List Char) :
    set.scanAs true path content = (set.scanAs false path content).map Finding.asFixture := by
  unfold scanAs
  split
  · rfl
  · simp only [reportEach_eq, List.map_flatMap, List.map_map]
    rfl

theorem scanContent_of_isFixture (h : isFixture path content = true) :
    set.scanContent path content = (set.scanAs false path content).map Finding.asFixture := by
  rw [scanContent_eq_scanAs, h, scanAs_true]

theorem severity_of_isFixture (h : isFixture path content = true) {f : Finding}
    (hf : f ∈ set.scanContent path content) : f.severity = .info := by
  rw [scanContent_of_isFixture h] at hf
  obtain ⟨g, -, rfl⟩ := List.mem_map.1 hf
  rfl

end RuleSet

/-! ## Files -/

/-- The file of a project can be read and holds test data, by its path below the project and by its
text. -/
def Disk.isFixtureFile (d : Disk) (project file : Path) : Bool :=
  let answer := do
    let root ← d.resolve project
    let content ← d.readSource file
    let place ← d.resolve file
    let path ← place.relativeText root
    return isFixture path content
  match answer with
  | .ok fixture => fixture
  | .error _ => false

namespace RuleSet

variable {d : Disk} {project root file : Path}

/-- A file with test data is scanned without a fault, and what is found is only information. -/
theorem scanFile_of_isFixtureFile (set : RuleSet) (hroot : d.resolve project = .ok root)
    (h : d.isFixtureFile project file = true) :
    ∃ found, set.scanFile d root file = .ok found ∧ ∀ f ∈ found, f.severity = .info := by
  unfold Disk.isFixtureFile at h
  rw [hroot] at h
  unfold scanFile
  cases hread : d.readSource file with
  | error fault => rw [hread] at h; cases h
  | ok content =>
    cases hplace : d.resolve file with
    | error fault => rw [hread, hplace] at h; cases h
    | ok place =>
      cases hpath : place.relativeText root with
      | error fault =>
        simp only [hread, hplace, hpath, bind, Except.bind] at h
        cases h
      | ok path =>
        simp only [hread, hplace, hpath, bind, Except.bind] at h ⊢
        exact ⟨_, rfl, fun f hf => severity_of_isFixture h hf⟩

/-- What is found in files with and without those of test data: the same fault, or findings that
differ only in information. -/
theorem mapM_scanFile_cases (set : RuleSet) (hroot : d.resolve project = .ok root)
    (files : List Path) :
    (∃ fault, files.mapM (set.scanFile d root) = .error fault ∧
      (files.filter fun file => !d.isFixtureFile project file).mapM (set.scanFile d root) =
        .error fault) ∨
    ∃ all plain, files.mapM (set.scanFile d root) = .ok all ∧
      (files.filter fun file => !d.isFixtureFile project file).mapM (set.scanFile d root) =
        .ok plain ∧ SameBurden all.flatten plain.flatten := by
  induction files with
  | nil => exact .inr ⟨[], [], rfl, rfl, .refl _⟩
  | cons file files ih =>
    cases hfixture : d.isFixtureFile project file with
    | true =>
      obtain ⟨found, hfound, hinfo⟩ := scanFile_of_isFixtureFile set hroot hfixture
      rw [List.filter_cons_of_neg (by simp [hfixture]), List.mapM_cons, hfound]
      rcases ih with ⟨fault, hall, hplain⟩ | ⟨all, plain, hall, hplain, hsame⟩
      · exact .inl ⟨fault, by rw [hall]; rfl, hplain⟩
      · refine .inr ⟨found :: all, plain, by rw [hall]; rfl, hplain, ?_⟩
        exact (sameBurden_nil hinfo).append hsame
    | false =>
      rw [List.filter_cons_of_pos (by simp [hfixture]), List.mapM_cons, List.mapM_cons]
      cases hfound : set.scanFile d root file with
      | error fault => exact .inl ⟨fault, rfl, rfl⟩
      | ok found =>
        rcases ih with ⟨fault, hall, hplain⟩ | ⟨all, plain, hall, hplain, hsame⟩
        · exact .inl ⟨fault, by rw [hall]; rfl, by rw [hplain]; rfl⟩
        · refine .inr ⟨found :: all, found :: plain, by rw [hall]; rfl, by rw [hplain]; rfl, ?_⟩
          exact (SameBurden.refl found).append hsame

/-- **Files with test data cost no points.** -/
theorem score_scanFiles (set : RuleSet) (d : Disk) (project : Path) (files : List Path) :
    (set.scanFiles d project files).map Score.ofFindings =
      (set.scanFiles d project (files.filter fun file => !d.isFixtureFile project file)).map
        Score.ofFindings := by
  unfold scanFiles
  cases hroot : d.resolve project with
  | error fault => rfl
  | ok root =>
    rcases mapM_scanFile_cases set hroot files with
      ⟨fault, hall, hplain⟩ | ⟨all, plain, hall, hplain, hsame⟩
    · simp only [bind, Except.bind, hall, hplain, Except.map]
    · simp only [bind, Except.bind, hall, hplain, Except.map, pure, Except.pure, hsame.score_eq]

/-- **Test data is visible and costs no points.** A scan marks findings one by one as it goes over
the matches. In test data this gives exactly the findings that there were without the mark, each one
as mere information, with the mark in its title and description, and with its scanner, place and
advice as they were. So files with test data can be left out of the files of a project without a
change of the score. -/
theorem scanContent_isFixture (set : RuleSet) :
    (∀ path content,
      set.scanContent path content = set.scanAs (isFixture path content) path content ∧
      (isFixture path content = true →
        set.scanContent path content = (set.scanAs false path content).map Finding.asFixture)) ∧
    (∀ f : Finding, f.asFixture.severity = .info ∧
      f.asFixture.title = "[test fixture] " ++ f.title ∧
      f.asFixture.description =
        f.description ++ "  -  intentional test data; add a `# nosec` comment to suppress" ∧
      f.asFixture.scanner = f.scanner ∧ f.asFixture.location = f.location ∧
      f.asFixture.remediation = f.remediation) ∧
    ∀ d project files,
      (set.scanFiles d project files).map Score.ofFindings =
        (set.scanFiles d project (files.filter fun file => !d.isFixtureFile project file)).map
          Score.ofFindings :=
  ⟨fun path content => ⟨scanContent_eq_scanAs set path content, scanContent_of_isFixture⟩,
    fun _ => ⟨rfl, rfl, rfl, rfl, rfl, rfl⟩, score_scanFiles set⟩

/-- Six calls in a file of test data, of which five are reported. -/
theorem scanContent_fixtureCalls :
    let calls := (List.replicate 6 "eval(text)\n".toList).flatten
    isFixture "fixtures/run.js" calls = true ∧
      (insecure.scanContent "fixtures/run.js" calls).map (fun f => (f.severity, f.location)) =
        (List.range 5).map fun i => (Severity.info, Location.line "fixtures/run.js" (i + 1)) := by
  intro calls
  have hfixture : isFixture "fixtures/run.js" calls = true := by decide +kernel
  have hplain : (insecure.scanAs false "fixtures/run.js" calls).map (·.location) =
      (List.range 5).map fun i => Location.line "fixtures/run.js" (i + 1) := by decide +kernel
  refine ⟨hfixture, ?_⟩
  rw [((scanContent_isFixture insecure).1 "fixtures/run.js" calls).2 hfixture, List.map_map]
  have hmarked : ((fun f : Finding => (f.severity, f.location)) ∘ Finding.asFixture) =
      (fun l => (Severity.info, l)) ∘ fun f => f.location := rfl
  rw [hmarked, ← List.map_map, hplain, List.map_map]
  rfl

end RuleSet

end WorkspaceAudit
