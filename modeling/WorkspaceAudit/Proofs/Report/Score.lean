import WorkspaceAudit.Report.Basic

/-!
# Counts, points and grades

- `Summary.count_ofFindings`, `Summary.penalty_eq`: what the findings cost, by their numbers.
- `Grade.ofPoints_eq`: the grades by their thresholds.
- `SameBurden`: two lists of findings differ at most in what is only information;
  `SameBurden.score_eq`: then they have the same score.
- `Report.blocking_sublist`, `Report.length_blocking_critical`, `Report.length_blocking_high`: which
  findings block, and how many.
- `Report.Consistent`: counts, points and grade of a report are those of its findings;
  `Report.Consistent.grade_of_blocking`: then a critical finding that blocks gives the worst grade.
-/

namespace WorkspaceAudit

/-- The number of findings of a severity. -/
def countOf (severity : Severity) (findings : List Finding) : Nat :=
  findings.countP (·.severity == severity)

section Counts

variable {findings others : List Finding} {severity : Severity}

@[simp] theorem countOf_append :
    countOf severity (findings ++ others) = countOf severity findings + countOf severity others :=
  List.countP_append

theorem Summary.count_ofFindings (findings : List Finding) (severity : Severity) :
    (Summary.ofFindings findings).count severity = countOf severity findings := by
  cases severity <;> rfl

theorem Summary.penalty_eq (s : Summary) :
    s.penalty = 30 * s.critical + 10 * s.high + 3 * s.medium + s.low := by
  have hsum : s.penalty = 30 * s.critical +
      (10 * s.high + (3 * s.medium + (1 * s.low + (0 * s.info + 0)))) := rfl
  omega

/-- The grades by their thresholds. -/
theorem Grade.ofPoints_eq (points : Int) (hasCritical : Bool) :
    ofPoints points hasCritical =
      if hasCritical then .f
      else if 90 ≤ points then .a
      else if 75 ≤ points then .b
      else if 60 ≤ points then .c
      else if 40 ≤ points then .d
      else .f := by
  unfold ofPoints thresholds
  simp only [List.find?_cons, List.find?_nil]
  cases hasCritical with
  | true => rfl
  | false =>
    by_cases ha : 90 ≤ points
    · simp [ha]
    by_cases hb : 75 ≤ points
    · simp [ha, hb]
    by_cases hc : 60 ≤ points
    · simp [ha, hb, hc]
    by_cases hd : 40 ≤ points <;> simp [ha, hb, hc, hd]

/-! ## What does not cost points -/

/-- There are as many findings of each severity in two lists, but for what is only information. -/
def SameBurden (findings others : List Finding) : Prop :=
  ∀ severity, severity ≠ .info → countOf severity findings = countOf severity others

theorem SameBurden.refl (findings : List Finding) : SameBurden findings findings :=
  fun _ _ => rfl

theorem SameBurden.append {more further : List Finding} (h : SameBurden findings others)
    (hmore : SameBurden more further) : SameBurden (findings ++ more) (others ++ further) := by
  intro severity hne
  rw [countOf_append, countOf_append, h severity hne, hmore severity hne]

/-- Information is no burden. -/
theorem sameBurden_nil (h : ∀ f ∈ findings, f.severity = .info) : SameBurden findings [] := by
  intro severity hne
  refine List.countP_eq_zero.2 fun f hf => ?_
  rw [h f hf]
  simpa using Ne.symm hne

/-- **What is only information does not change a score.** -/
theorem SameBurden.score_eq (h : SameBurden findings others) :
    Score.ofFindings findings = Score.ofFindings others := by
  have hcritical : (Summary.ofFindings findings).critical = (Summary.ofFindings others).critical :=
    congrArg Int.ofNat (h .critical (by decide))
  have hhigh : (Summary.ofFindings findings).high = (Summary.ofFindings others).high :=
    congrArg Int.ofNat (h .high (by decide))
  have hmedium : (Summary.ofFindings findings).medium = (Summary.ofFindings others).medium :=
    congrArg Int.ofNat (h .medium (by decide))
  have hlow : (Summary.ofFindings findings).low = (Summary.ofFindings others).low :=
    congrArg Int.ofNat (h .low (by decide))
  simp only [Score.ofFindings, Summary.penalty_eq, hcritical, hhigh, hmedium, hlow]

end Counts

/-! ## Findings that block -/

namespace Report

variable {r : Report} {level other : Severity}

/-- What blocks at a level also blocks at a lower one. -/
theorem blocking_sublist (r : Report) (h : level.rank ≤ other.rank) :
    (r.blocking level).Sublist (r.blocking other) := by
  have hfilter : r.blocking level = (r.blocking other).filter (·.severity.rank ≤ level.rank) := by
    rw [blocking, blocking, List.filter_filter]
    refine List.filter_congr fun f _ => ?_
    simp only [← Bool.decide_and, decide_eq_decide]
    omega
  rw [hfilter]
  exact List.filter_sublist

theorem length_blocking_critical (r : Report) :
    (r.blocking .critical).length = countOf .critical r.findings := by
  rw [blocking, countOf, List.countP_eq_length_filter]
  congr 1
  refine List.filter_congr fun f _ => ?_
  cases f.severity <;> rfl

theorem length_blocking_high (r : Report) :
    (r.blocking .high).length = countOf .critical r.findings + countOf .high r.findings := by
  rw [blocking, ← List.countP_eq_length_filter]
  induction r.findings with
  | nil => rfl
  | cons f findings ih =>
    simp only [countOf, List.countP_cons] at ih ⊢
    rw [ih]
    cases f.severity <;> simp [Severity.rank] <;> omega

/-- Counts, points and grade of a report are those of its findings. -/
structure Consistent (r : Report) : Prop where
  counts : ∀ severity, r.summary.count severity = countOf severity r.findings
  points_eq : (r.points : Int) = max 0 (100 - 30 * r.summary.critical - 10 * r.summary.high -
    3 * r.summary.medium - r.summary.low)
  grade_eq : r.grade =
    if 0 < r.summary.critical then .f
    else if 90 ≤ r.points then .a
    else if 75 ≤ r.points then .b
    else if 60 ≤ r.points then .c
    else if 40 ≤ r.points then .d
    else .f

theorem Consistent.length_blocking_critical (h : r.Consistent) :
    ((r.blocking .critical).length : Int) = r.summary.critical := by
  rw [Report.length_blocking_critical]
  exact (h.counts .critical).symm

theorem Consistent.length_blocking_high (h : r.Consistent) :
    ((r.blocking .high).length : Int) = r.summary.critical + r.summary.high := by
  have hcritical : r.summary.critical = countOf .critical r.findings := h.counts .critical
  have hhigh : r.summary.high = countOf .high r.findings := h.counts .high
  rw [Report.length_blocking_high, hcritical, hhigh, Int.natCast_add]

/-- A report with a finding that blocks as a critical one has the worst grade. -/
theorem Consistent.grade_of_blocking (h : r.Consistent) (hblocked : r.blocking .critical ≠ []) :
    r.grade = .f := by
  have hpos : 0 < r.summary.critical := by
    rw [← h.length_blocking_critical]
    exact_mod_cast List.length_pos_iff.2 hblocked
  rw [h.grade_eq, if_pos hpos]

theorem Consistent.points_le (h : r.Consistent) : r.points ≤ 100 := by
  have hcount (severity : Severity) : 0 ≤ r.summary.count severity := by
    rw [h.counts severity]
    exact Int.natCast_nonneg _
  have hcritical : 0 ≤ r.summary.critical := hcount .critical
  have hhigh : 0 ≤ r.summary.high := hcount .high
  have hmedium : 0 ≤ r.summary.medium := hcount .medium
  have hlow : 0 ≤ r.summary.low := hcount .low
  have hpoints := h.points_eq
  omega

end Report

end WorkspaceAudit
