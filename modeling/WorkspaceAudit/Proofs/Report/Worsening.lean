import Mathlib.Data.List.FinRange
import Mathlib.Data.List.Perm.Subperm
import WorkspaceAudit.Proofs.Report.Score

/-!
# More or worse findings do not improve a score

Lists of findings are compared by how many findings there are down to each severity, from the most
severe one on. Points and grades fall as these numbers grow.

- `countDownTo`: the number of findings that are at least so severe; `Summary.penalty_ofFindings`:
  what the findings cost, by these numbers.
- `Outweighs`: one list has at least as many findings as another down to each severity;
  `outweighs_of_injective`: so it has if the findings of the other have places of their own in it
  among findings that are not less severe.
- `Outweighs.atMost`: then its score is not better.
- `Score.ofFindings_antitone`: all of this for two lists of findings.
-/

namespace WorkspaceAudit

variable {findings others : List Finding}

/-- The number of findings of this rank or a more severe one. -/
def countDownTo (rank : Nat) (findings : List Finding) : Nat :=
  findings.countP fun f => f.severity.rank ≤ rank

/-- Counting by places. -/
theorem countDownTo_eq_countP (rank : Nat) (findings : List Finding) :
    countDownTo rank findings =
      (List.finRange findings.length).countP fun i => (findings.get i).severity.rank ≤ rank := by
  conv_lhs => rw [← List.map_get_finRange findings]
  exact List.countP_map

/-- What a finding costs, by steps from the least severe rank on: a more severe finding costs all
that a less severe one does. -/
theorem Severity.penalty_eq_steps (s : Severity) :
    s.penalty = 20 * (if s.rank ≤ 0 then 1 else 0) + 7 * (if s.rank ≤ 1 then 1 else 0) +
      2 * (if s.rank ≤ 2 then 1 else 0) + if s.rank ≤ 3 then 1 else 0 := by
  cases s <;> rfl

theorem Summary.penalty_cons (f : Finding) (findings : List Finding) :
    (Summary.ofFindings (f :: findings)).penalty =
      f.severity.penalty + (Summary.ofFindings findings).penalty := by
  simp only [Summary.penalty_eq, Summary.ofFindings, List.countP_cons]
  cases f.severity <;> simp [Severity.penalty] <;> omega

/-- What the findings cost, by how many there are down to each severity. -/
theorem Summary.penalty_ofFindings (findings : List Finding) :
    (Summary.ofFindings findings).penalty =
      ((20 * countDownTo 0 findings + 7 * countDownTo 1 findings + 2 * countDownTo 2 findings +
        countDownTo 3 findings : Nat) : Int) := by
  induction findings with
  | nil => rfl
  | cons f findings ih =>
    rw [penalty_cons, ih, f.severity.penalty_eq_steps]
    simp only [countDownTo, List.countP_cons, decide_eq_true_eq]
    omega

theorem Summary.critical_ofFindings (findings : List Finding) :
    (Summary.ofFindings findings).critical = countDownTo 0 findings := by
  have hsame : ∀ f ∈ findings, (f.severity == .critical) = true ↔
      decide (f.severity.rank ≤ 0) = true := by
    intro f _
    cases f.severity <;> decide
  exact congrArg Int.ofNat (List.countP_congr hsame)

/-! ## Grades -/

/-- 0 for the best grade, 4 for the worst. -/
def Grade.rank : Grade → Nat
  | .a => 0
  | .b => 1
  | .c => 2
  | .d => 3
  | .f => 4

/-- Fewer points do not give a better grade, with a critical finding or without one. -/
theorem Grade.rank_ofPoints_le {points more : Int} {hasCritical hadCritical : Bool}
    (hpoints : points ≤ more) (hcritical : hadCritical = true → hasCritical = true) :
    (ofPoints more hadCritical).rank ≤ (ofPoints points hasCritical).rank := by
  have hworst (grade : Grade) : grade.rank ≤ Grade.f.rank := by cases grade <;> decide
  rw [ofPoints_eq points]
  cases hasCritical with
  | true => exact hworst _
  | false =>
    obtain rfl : hadCritical = false := by simpa using hcritical
    rw [ofPoints_eq]
    simp only [Bool.false_eq_true, if_false]
    -- A threshold that the fewer points reach is reached by the others as well.
    split_ifs <;> first | omega | decide

/-- One score is not better than another, by its points and by its grade. -/
structure Score.AtMost (s t : Score) : Prop where
  points_le : s.points ≤ t.points
  rank_le : t.grade.rank ≤ s.grade.rank

/-- There are a hundred points at most, however the findings are. -/
theorem Score.points_ofFindings_le (findings : List Finding) :
    (Score.ofFindings findings).points ≤ 100 := by
  simp only [Score.ofFindings, Summary.penalty_ofFindings]
  omega

/-! ## Comparing lists of findings -/

/-- Of two lists, the second one has as many findings down to each severity, or more. -/
def Outweighs (findings others : List Finding) : Prop :=
  ∀ rank, countDownTo rank findings ≤ countDownTo rank others

/-- **What outweighs does not score better.** -/
theorem Outweighs.atMost (h : Outweighs findings others) :
    (Score.ofFindings others).AtMost (Score.ofFindings findings) := by
  have hpenalty : (Summary.ofFindings findings).penalty ≤ (Summary.ofFindings others).penalty := by
    rw [Summary.penalty_ofFindings, Summary.penalty_ofFindings]
    have h₀ := h 0
    have h₁ := h 1
    have h₂ := h 2
    have h₃ := h 3
    omega
  have hpoints : (Score.ofFindings others).points ≤ (Score.ofFindings findings).points := by
    simp only [Score.ofFindings]
    omega
  refine ⟨hpoints, Grade.rank_ofPoints_le (Int.ofNat_le.2 hpoints) ?_⟩
  rw [decide_eq_true_eq, decide_eq_true_eq, Summary.critical_ofFindings,
    Summary.critical_ofFindings]
  have h₀ := h 0
  omega

/-- Findings with places of their own among findings that are not less severe are outweighed by
these. -/
theorem outweighs_of_injective {place : Fin findings.length → Fin others.length}
    (hplace : Function.Injective place)
    (hworse : ∀ i, (others.get (place i)).severity.rank ≤ (findings.get i).severity.rank) :
    Outweighs findings others := by
  intro rank
  have hplaces : ((List.finRange findings.length).map place).Subperm
      (List.finRange others.length) :=
    ((List.nodup_finRange _).map hplace).subperm fun j _ => List.mem_finRange j
  rw [countDownTo_eq_countP, countDownTo_eq_countP]
  calc (List.finRange findings.length).countP fun i => (findings.get i).severity.rank ≤ rank
      ≤ (List.finRange findings.length).countP fun i =>
          (others.get (place i)).severity.rank ≤ rank := by
        refine List.countP_mono_left fun i _ hdown => ?_
        exact decide_eq_true ((hworse i).trans (of_decide_eq_true hdown))
    _ = ((List.finRange findings.length).map place).countP fun j =>
          (others.get j).severity.rank ≤ rank := by
        rw [List.countP_map]
        rfl
    _ ≤ (List.finRange others.length).countP fun j => (others.get j).severity.rank ≤ rank :=
        hplaces.countP_le _

/-- Findings are outweighed by any list that they are part of. -/
theorem outweighs_of_sublist (h : findings.Sublist others) : Outweighs findings others :=
  fun _ => h.countP_le

/-- Findings are outweighed by the same ones with severities raised. -/
theorem outweighs_of_forall₂
    (h : List.Forall₂ (fun f g => g.severity.rank ≤ f.severity.rank) findings others) :
    Outweighs findings others := by
  refine outweighs_of_injective (Fin.cast_injective h.length_eq) fun i => ?_
  exact h.get i.isLt (h.length_eq ▸ i.isLt)

theorem sameBurden_filter (findings : List Finding) :
    SameBurden findings (findings.filter (·.severity ≠ .info)) := by
  intro severity hne
  rw [countOf, countOf, List.countP_filter]
  refine List.countP_congr fun f _ => ?_
  cases f.severity <;> cases severity <;> simp at hne ⊢

/-- **More or worse findings do not improve a score.** If the findings of one list have places of
their own in another, where findings that are at least as severe stand, the score of the other is
not better, neither by points nor by grade; there are at most a hundred points each. So it is if
findings are added anywhere, or if severities are raised. Scores do not depend on the order, nor on
what is only information. -/
theorem Score.ofFindings_antitone (findings others : List Finding) :
    (∀ place : Fin findings.length → Fin others.length, Function.Injective place →
      (∀ i, (others.get (place i)).severity.rank ≤ (findings.get i).severity.rank) →
      (Score.ofFindings others).AtMost (Score.ofFindings findings)) ∧
    (Score.ofFindings findings).points ≤ 100 ∧ (Score.ofFindings others).points ≤ 100 ∧
    (findings.Sublist others → (Score.ofFindings others).AtMost (Score.ofFindings findings)) ∧
    (List.Forall₂ (fun f g => g.severity.rank ≤ f.severity.rank) findings others →
      (Score.ofFindings others).AtMost (Score.ofFindings findings)) ∧
    ((findings.filter (·.severity ≠ .info)).Perm (others.filter (·.severity ≠ .info)) →
      Score.ofFindings findings = Score.ofFindings others) := by
  refine ⟨fun place hplace hworse => (outweighs_of_injective hplace hworse).atMost,
    points_ofFindings_le findings, points_ofFindings_le others,
    fun h => (outweighs_of_sublist h).atMost, fun h => (outweighs_of_forall₂ h).atMost,
    fun hperm => ?_⟩
  have hburden : SameBurden (findings.filter (·.severity ≠ .info))
      (others.filter (·.severity ≠ .info)) := fun _ _ => hperm.countP_eq _
  rw [(sameBurden_filter findings).score_eq, hburden.score_eq, (sameBurden_filter others).score_eq]

/-- A finding of which only the severity matters. -/
def Severity.sample (severity : Severity) : Finding where
  scanner := .secrets
  severity := severity
  title := ""
  description := ""

theorem Score.ofFindings_raised :
    (Score.ofFindings [Severity.low.sample, Severity.high.sample, Severity.critical.sample]).AtMost
      (Score.ofFindings [Severity.high.sample, Severity.medium.sample]) ∧
    Score.ofFindings [Severity.low.sample, Severity.high.sample, Severity.critical.sample] =
      ⟨.f, 59⟩ ∧
    Score.ofFindings [Severity.high.sample, Severity.medium.sample] = ⟨.b, 87⟩ := by
  have hinjective : Function.Injective fun i : Fin 2 => (i.rev.succ : Fin 3) :=
    (Fin.succ_injective 2).comp Fin.rev_injective
  refine ⟨(Score.ofFindings_antitone _ _).1 _ hinjective ?_, by decide, by decide⟩
  decide

end WorkspaceAudit
