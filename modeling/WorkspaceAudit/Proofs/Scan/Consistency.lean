import WorkspaceAudit.Proofs.Number.Rounding
import WorkspaceAudit.Proofs.Report.RoundTrip
import WorkspaceAudit.Proofs.Report.Score
import WorkspaceAudit.Proofs.Scan.Merging

/-!
# Reports of scans

- `Report.consistent_ofFindings`: a report on findings agrees with them.
- `Machine.Hinders`: what keeps a scan from a report: the path of the project, the clock or the
  stopwatch, but no scanner and nothing in the report itself.
- `Machine.Timed`: a clock and a stopwatch that do not hinder a scan.
- `scanProject_consistent`: unless something hinders it, a scan gives a report whose counts, points,
  grade and blocking findings agree.
-/

namespace WorkspaceAudit

open ProjectScanner

variable {scanners : List ProjectScanner} {m : Machine} {root project : Path} {now : Moment}
  {findings : List Finding} {ms : Int} {fault : Fault} {r : Report}

/-- **A report on findings agrees with them.** -/
theorem Report.consistent_ofFindings (h : ofFindings root now findings ms = .ok r) :
    r.findings = findings ∧ r.Consistent := by
  unfold ofFindings at h
  dsimp only at h
  split_ifs at h
  obtain rfl := Except.ok.inj h
  refine ⟨rfl, Summary.count_ofFindings findings, ?_, ?_⟩
  · have hpenalty := (Summary.ofFindings findings).penalty_eq
    simp only [Score.ofFindings]
    omega
  · simp only [Score.ofFindings, Grade.ofPoints_eq, decide_eq_true_eq, Nat.ofNat_le_cast]

/-- A consistent report can be stored if its findings can. -/
theorem Report.Consistent.valid_iff (h : r.Consistent) : r.Valid ↔ ∀ f ∈ r.findings, f.Valid :=
  ⟨Report.Valid.findings, Report.Valid.mk h.points_le⟩

/-- What keeps a scan of a project from a report. -/
inductive Machine.Hinders (m : Machine) (project : Path) : Fault → Prop where
  /-- The path of the project leads nowhere. -/
  | path {fault : Fault} (hroot : m.disk.resolve project = .error fault) : Hinders m project fault
  /-- The clock shows a time that is in no calendar. -/
  | clock {root : Path} {fault : Fault} (hroot : m.disk.resolve project = .ok root)
    (hnow : m.now = .error fault) : Hinders m project fault
  /-- The time between the two readings of the stopwatch cannot be told. -/
  | stopwatch {root : Path} {now : Moment} {cause : Unmeasurable}
    (hroot : m.disk.resolve project = .ok root) (hnow : m.now = .ok now)
    (hcause : Reading.elapsedMs m.reading m.afterReading.reading = .error cause) :
    Hinders m project (.unmeasurable cause)

theorem Machine.Hinders.unique {other : Fault} (h : m.Hinders project fault)
    (hother : m.Hinders project other) : fault = other := by
  cases h <;> cases hother <;> simp_all

theorem Machine.not_hinders (hroot : m.disk.resolve project = .ok root) (hnow : m.now = .ok now)
    (hms : Reading.elapsedMs m.reading m.afterReading.reading = .ok ms) (fault : Fault) :
    ¬ m.Hinders project fault := by
  intro hhinders
  cases hhinders with
  | path herror => rw [hroot] at herror; cases herror
  | clock _ herror => rw [hnow] at herror; cases herror
  | stopwatch _ _ herror => rw [hms] at herror; cases herror

/-- Nothing hinders a scan of a project that is there, at a time that is in the calendar and with
readings of a stopwatch that are not too large. -/
theorem Machine.not_hinders_of_moderate (hroot : m.disk.resolve project = .ok root)
    (hnow : m.now = .ok now) (hstart : m.reading.Moderate)
    (hstop : m.afterReading.reading.Moderate) (fault : Fault) : ¬ m.Hinders project fault := by
  obtain ⟨ms, hms⟩ := Reading.exists_elapsedMs hstart hstop
  exact Machine.not_hinders hroot hnow hms fault

theorem scanProject_run_of_elapsedMs_error {cause : Unmeasurable}
    (hroot : m.disk.resolve project = .ok root) (hnow : m.now = .ok now)
    (h : Reading.elapsedMs m.reading m.afterReading.reading = .error cause) :
    (scanProject scanners project).run m =
      (.error (.unmeasurable cause), m.afterReading.afterReading) := by
  rw [scanProject_run hroot hnow, elapsedMs, h]
  rfl

theorem scanProject_run_of_elapsedMs_ok (hroot : m.disk.resolve project = .ok root)
    (hnow : m.now = .ok now)
    (h : Reading.elapsedMs m.reading m.afterReading.reading = .ok ms) :
    (scanProject scanners project).run m =
      (Report.ofFindings root now (gather scanners m.afterReading root) ms,
        m.afterReading.afterReading) := by
  rw [scanProject_run hroot hnow, elapsedMs, h]
  rfl

/-- A scan either is hindered or gives a report on the findings of its scanners. -/
theorem scanProject_cases (scanners : List ProjectScanner) (project : Path)
    (hstart : m.reading.Fits) (hstop : m.afterReading.reading.Fits)
    (hback : ¬ Reading.GoesBack m.reading m.afterReading.reading) :
    (∃ fault, m.Hinders project fault ∧ ((scanProject scanners project).run m).1 = .error fault) ∨
      (∀ fault, ¬ m.Hinders project fault) ∧ ∃ root now ms r, m.disk.resolve project = .ok root ∧
        Report.ofFindings root now (gather scanners m.afterReading root) ms = .ok r ∧
        ((scanProject scanners project).run m).1 = .ok r := by
  cases hroot : m.disk.resolve project with
  | error fault =>
    exact .inl ⟨fault, .path hroot, by rw [scanProject_run_of_resolve_error hroot]⟩
  | ok root =>
    cases hnow : m.now with
    | error fault =>
      exact .inl ⟨fault, .clock hroot hnow, by rw [scanProject_run_of_now_error hroot hnow]⟩
    | ok now =>
      cases hms : Reading.elapsedMs m.reading m.afterReading.reading with
      | error cause =>
        exact .inl ⟨_, .stopwatch hroot hnow hms, by
          rw [scanProject_run_of_elapsedMs_error hroot hnow hms]⟩
      | ok ms =>
        -- The report itself fails for a negative duration only, and the clock has not gone back.
        have hnonneg : 0 ≤ ms := Reading.elapsedMs_nonneg hback hstart hstop hms
        cases hr : Report.ofFindings root now (gather scanners m.afterReading root) ms with
        | error fault => exact absurd (Report.ofFindings_eq_error_iff.1 hr).1 (not_lt.2 hnonneg)
        | ok r =>
          refine .inr ⟨Machine.not_hinders hroot hnow hms, root, now, ms, r, rfl, hr, ?_⟩
          rw [scanProject_run_of_elapsedMs_ok hroot hnow hms]
          exact hr

/-- The clock and the stopwatch are as a scan needs them: the time is in the calendar, and the two
readings are not too large and do not go back. -/
structure Machine.Timed (m : Machine) : Prop where
  exists_now : ∃ now, m.now = .ok now
  fits : m.reading.Fits ∧ m.afterReading.reading.Fits
  moderate : m.reading.Moderate ∧ m.afterReading.reading.Moderate
  onward : ¬ Reading.GoesBack m.reading m.afterReading.reading

/-- **A scan at a time that can be told gives a report** on what is found below the project. -/
theorem Machine.Timed.scanProject_ok (h : m.Timed) (scanners : List ProjectScanner)
    (hroot : m.disk.resolve project = .ok root) :
    ∃ now ms r, Report.ofFindings root now (gather scanners m.afterReading root) ms = .ok r ∧
      ((scanProject scanners project).run m).1 = .ok r := by
  obtain ⟨now, hnow⟩ := h.exists_now
  rcases scanProject_cases scanners project h.fits.1 h.fits.2 h.onward with
    ⟨fault, hhinders, -⟩ | ⟨-, place, now, ms, r, hplace, hr, hok⟩
  · exact absurd hhinders
      (Machine.not_hinders_of_moderate hroot hnow h.moderate.1 h.moderate.2 fault)
  · obtain rfl := Except.ok.inj (hplace.symm.trans hroot)
    exact ⟨now, ms, r, hr, hok⟩

/-- A stopwatch without readings stands still. -/
theorem Machine.timed_of_standing (hnow : ∃ now, m.now = .ok now) (hreadings : m.readings = []) :
    m.Timed := by
  have hzero : m.reading = .whole 0 := by simp [Machine.reading, hreadings, Reading.zero]
  have hsame : m.afterReading.reading = .whole 0 := by
    simp [Machine.reading, Machine.afterReading, hreadings, Reading.zero]
  have hmoderate : Reading.Moderate (.whole 0) := ⟨0, by simp [Reading.value?], by positivity⟩
  refine ⟨hnow, ?_, ?_, ?_⟩
  · rw [hzero, hsame]
    exact ⟨trivial, trivial⟩
  · rw [hzero, hsame]
    exact ⟨hmoderate, hmoderate⟩
  · rw [hzero, hsame]
    rintro ⟨a, b, ha, hb, hlt⟩
    rw [ha] at hb
    exact absurd (Option.some.inj hb).symm hlt.ne

/-- **A scan that nothing hinders gives a consistent report.** A stopwatch that does not go back
shows two readings. Then a scan ends in a fault exactly if the path of the project, the clock or the
stopwatch hinders it, the last one only with readings that are far too large. Otherwise there is a
report on the findings of all scanners, which can be stored if they can. Its counts, points and
grade are those of the findings. As many findings block at the highest level as are critical, as
many at the next one as are critical or high, the former are among the latter in their order, and if
there are any of them, the grade is the worst. -/
theorem scanProject_consistent (chosen : Option (List ProjectScanner))
    (extra : List ProjectScanner) (m : Machine) (project : Path) (hstart : m.reading.Fits)
    (hstop : m.afterReading.reading.Fits)
    (hback : ¬ Reading.GoesBack m.reading m.afterReading.reading) :
    let scanners := selected chosen extra
    let outcome := ((scanProject scanners project).run m).1
    (∀ fault, outcome = .error fault ↔ m.Hinders project fault) ∧
    (∀ root now, m.disk.resolve project = .ok root → m.now = .ok now → m.reading.Moderate →
      m.afterReading.reading.Moderate → ∀ fault, ¬ m.Hinders project fault) ∧
    ((∀ fault, ¬ m.Hinders project fault) → ∃ r, outcome = .ok r ∧
      (∃ root, m.disk.resolve project = .ok root ∧
        r.findings = gather scanners m.afterReading root) ∧
      (r.Valid ↔ ∀ f ∈ r.findings, f.Valid) ∧ r.Consistent ∧
      ((r.blocking .critical).length : Int) = r.summary.critical ∧
      ((r.blocking .high).length : Int) = r.summary.critical + r.summary.high ∧
      (r.blocking .critical).Sublist (r.blocking .high) ∧
      (r.blocking .critical ≠ [] → r.grade = .f)) := by
  intro scanners outcome
  have hmoderate : ∀ root now, m.disk.resolve project = .ok root → m.now = .ok now →
      m.reading.Moderate → m.afterReading.reading.Moderate → ∀ fault, ¬ m.Hinders project fault :=
    fun _ _ => Machine.not_hinders_of_moderate
  rcases scanProject_cases scanners project hstart hstop hback with
    ⟨fault, hhinders, hfault⟩ | ⟨hfree, root, now, ms, r, hroot, hr, hok⟩
  · refine ⟨fun other => ⟨fun hother => ?_, fun hother => ?_⟩, hmoderate, fun hfree => ?_⟩
    · obtain rfl := Except.error.inj (hfault.symm.trans hother)
      exact hhinders
    · rw [← hhinders.unique hother]
      exact hfault
    · exact absurd hhinders (hfree fault)
  · obtain ⟨hfindings, hconsistent⟩ := Report.consistent_ofFindings hr
    refine ⟨fun fault => ⟨fun hfault => ?_, fun hhinders => absurd hhinders (hfree fault)⟩,
      hmoderate,
      fun _ => ⟨r, hok, ⟨root, hroot, hfindings⟩, hconsistent.valid_iff, hconsistent, ?_⟩⟩
    · exact absurd (hok.symm.trans hfault) (by simp)
    · exact ⟨hconsistent.length_blocking_critical, hconsistent.length_blocking_high,
        r.blocking_sublist (by decide), hconsistent.grade_of_blocking⟩

/-- A finding of a severity in no file. -/
def Finding.untitled (severity : Severity) : Finding where
  scanner := .threatModel
  severity := severity
  title := ""
  description := ""

theorem Finding.valid_untitled (severity : Severity) : (untitled severity).Valid :=
  ⟨rfl, by simp [untitled, Location.line?]⟩

/-- A scanner that reports a finding of a severity. -/
def ProjectScanner.reporting (severity : Severity) : ProjectScanner where
  name := "reporting"
  run _ _ := .ok [.untitled severity]

/-- A machine whose stopwatch shows two readings in turn. -/
def timedMachine (start stop : Reading) : Machine := { bareMachine with readings := [start, stop] }

theorem timedMachine_resolve (start stop : Reading) :
    (timedMachine start stop).disk.resolve ⟨.root, []⟩ = .ok ⟨.root, []⟩ := rfl

/-- A machine whose clock stands at the start of 1970 has a time that is in the calendar. -/
theorem exists_now_of_clock (h : m.clock = bareMachine.clock) : ∃ now, m.now = .ok now := by
  have hnow : ∃ now, bareMachine.now = .ok now := ⟨_, rfl⟩
  unfold Machine.now at hnow ⊢
  rwa [h]

theorem exists_now_timedMachine (start stop : Reading) :
    ∃ now, (timedMachine start stop).now = .ok now :=
  exists_now_of_clock rfl

/-- Between the readings 0.25 and 2 a scanner reports a critical finding, one fails, and an extra
one reports a finding of high severity. -/
theorem scanProject_consistent_timed :
    let m := timedMachine (.binary (.ofDecimal false 25 (-2))) (.whole 2)
    let scanners := selected (some [.reporting .critical, .scripted 0 none]) [.reporting .high]
    ∃ r, ((scanProject scanners ⟨.root, []⟩).run m).1 = .ok r ∧ r.Valid ∧ r.points = 60 ∧
      (r.blocking .critical).length = 1 ∧ (r.blocking .high).length = 2 ∧ r.grade = .f := by
  intro m scanners
  have hreading : m.reading = .binary (.ofDecimal false 25 (-2)) := rfl
  -- The clock says 0.25 and then 2: it does not go back, and neither reading is too large for a
  -- difference of the two.
  have hquarter : m.reading.value? = some (1 / 4) := by
    have hbinary : Binary.ofDecimal false 25 (-2) = .finite false 4503599627370496 (-54) := by
      decide +kernel
    rw [hreading, hbinary, Reading.value?, Binary.value?, Binary.signed_false]
    norm_num
  have htwo : m.afterReading.reading.value? = some 2 := by
    have hreading : m.afterReading.reading = .whole 2 := rfl
    rw [hreading, Reading.value?, Int.cast_ofNat]
  have hback : ¬ Reading.GoesBack m.reading m.afterReading.reading := by
    rintro ⟨a, b, ha, hb, hlt⟩
    obtain rfl := Option.some.inj (hquarter.symm.trans ha)
    obtain rfl := Option.some.inj (htwo.symm.trans hb)
    norm_num at hlt
  have hlarge : (2 : ℚ) ≤ 2 ^ (1000 : Int) := by
    simpa using zpow_le_zpow_right₀ (one_le_two : (1 : ℚ) ≤ 2) (by decide : (1 : Int) ≤ 1000)
  have hstart : m.reading.Moderate := ⟨1 / 4, hquarter, le_trans (by norm_num) hlarge⟩
  have hstop : m.afterReading.reading.Moderate := ⟨2, htwo, le_trans (by norm_num) hlarge⟩
  obtain ⟨now, hnow⟩ := exists_now_timedMachine (.binary (.ofDecimal false 25 (-2))) (.whole 2)
  obtain ⟨-, hfree, hreport⟩ := scanProject_consistent
    (some [.reporting .critical, .scripted 0 none]) [.reporting .high] m ⟨.root, []⟩
    (hreading ▸ Reading.fits_ofDecimal false 25 (-2)) trivial hback
  obtain ⟨r, hok, ⟨root, hroot, hfindings⟩, hvalid, hconsistent, hcritical, hhigh, -, hgrade⟩ :=
    hreport (hfree ⟨.root, []⟩ now (timedMachine_resolve _ _) hnow hstart hstop)
  have hcount (severity : Severity) :
      r.summary.count severity = countOf severity (gather scanners m.afterReading root) := by
    rw [← hfindings]
    exact hconsistent.counts severity
  have hone : r.summary.critical = 1 := hcount .critical
  have hmore : r.summary.high = 1 := hcount .high
  have hnone : r.summary.medium = 0 ∧ r.summary.low = 0 := ⟨hcount .medium, hcount .low⟩
  have hpoints := hconsistent.points_eq
  refine ⟨r, hok, hvalid.2 ?_, by omega, by omega, by omega, hgrade ?_⟩
  · have hgather : gather scanners m.afterReading root = [.untitled .critical, .untitled .high] :=
      rfl
    rw [hfindings, hgather]
    simp [Finding.valid_untitled]
  · intro hempty
    rw [hempty] at hcritical
    simp [hone] at hcritical

/-- A machine with nothing but a link to itself. -/
def loopMachine : Machine :=
  { bareMachine with disk := { top := .folder [("l", .link "l")], here := [] } }

/-- **A stopwatch that goes on can still hinder a scan**, and so can a link. -/
theorem scanProject_hindered :
    ¬ Reading.GoesBack (.whole 0) (.binary (.ofDecimal false 1 306)) ∧
    ((scanProject [] ⟨.root, []⟩).run
      (timedMachine (.whole 0) (.binary (.ofDecimal false 1 306)))).1 =
        .error (.unmeasurable .endless) ∧
    ∃ path, ((scanProject [] ⟨.root, ["l"]⟩).run loopMachine).1 = .error (.linkLoop path) := by
  have hbinary : Binary.ofDecimal false 1 306 = .finite false 6413338752028713 964 := by
    decide +kernel
  refine ⟨?_, ?_, ?_⟩
  · rintro ⟨a, b, ha, hb, hlt⟩
    obtain rfl := Option.some.inj ha
    rw [hbinary] at hb
    obtain rfl := Option.some.inj hb
    exact absurd hlt (not_lt.2 (by rw [Binary.signed_false]; positivity))
  · obtain ⟨now, hnow⟩ := exists_now_timedMachine (.whole 0) (.binary (.ofDecimal false 1 306))
    have hendless : Reading.elapsedMs (.whole 0) (.binary (.ofDecimal false 1 306)) =
        .error .endless := by
      rw [hbinary]
      decide +kernel
    rw [scanProject_run_of_elapsedMs_error (timedMachine_resolve _ _) hnow hendless]
  · exact ⟨_, rfl⟩

end WorkspaceAudit
