import Mathlib.Data.List.Nodup
import WorkspaceAudit.Proofs.Scan.Suppression

/-!
# The order of the stages

The first opinion on a candidate counts. Stages that only drop have one opinion between them, so it
does not matter in which order they are asked, nor how often. The stage that restates is the only
one whose place matters: all others have to be asked before it.

- `judge_append`, `judge_eq_iff`: the first opinion.
- `Stage.OnlyDrops`: a stage that only drops; `judge_congr`: the same stages in another order;
  `judge_reordered`: with one more stage behind them.
- `RuleSet.Isolates`: a text with a match that one stage alone drops;
  `RuleSet.Isolates.exists_split`: such a stage has to stay, in front of all that have another
  opinion.
- `RuleSet.scanContent_reordered`: exactly which orders leave all findings as they are.
-/

namespace WorkspaceAudit

/-! ## Verdicts -/

section Judging

variable {stage last : Stage} {stages others front back drops : List Stage} {c : Candidate}
  {verdict : Verdict}

theorem judge_cons : judge (stage :: stages) c =
    if stage.judge c = .pass then judge stages c else stage.judge c := by
  rw [judge]
  split
  · rw [if_pos ‹_›]
  · rw [if_neg ‹_›]

/-- The stages behind others are asked if these have no opinion. -/
theorem judge_append : judge (front ++ back) c =
    if judge front c = .pass then judge back c else judge front c := by
  induction front with
  | nil => rfl
  | cons stage front ih =>
    rw [List.cons_append, judge_cons, judge_cons, ih]
    by_cases hpass : stage.judge c = .pass
    · simp only [if_pos hpass]
    · simp only [if_neg hpass]

theorem judge_eq_pass_iff : judge stages c = .pass ↔ ∀ stage ∈ stages, stage.judge c = .pass := by
  induction stages with
  | nil => simp [judge]
  | cons stage stages ih =>
    rw [judge_cons, List.forall_mem_cons, ← ih]
    by_cases hpass : stage.judge c = .pass <;> simp [hpass]

/-- **The first opinion counts.** -/
theorem judge_eq_iff (hverdict : verdict ≠ .pass) : judge stages c = verdict ↔
    ∃ front stage back, stages = front ++ stage :: back ∧ stage.judge c = verdict ∧
      ∀ other ∈ front, other.judge c = .pass := by
  constructor
  · intro h
    induction stages with
    | nil => exact absurd h.symm hverdict
    | cons stage stages ih =>
      rw [judge_cons] at h
      split at h
      · rename_i hpass
        obtain ⟨front, first, back, rfl, hfirst, hfront⟩ := ih h
        exact ⟨stage :: front, first, back, rfl, hfirst, List.forall_mem_cons.2 ⟨hpass, hfront⟩⟩
      · exact ⟨[], stage, stages, rfl, h, by simp⟩
  · rintro ⟨front, stage, back, rfl, rfl, hfront⟩
    rw [judge_append, if_pos (judge_eq_pass_iff.2 hfront), judge_cons, if_neg hverdict]

/-- The stage drops candidates, and has no opinion on the others. -/
def Stage.OnlyDrops (stage : Stage) : Prop :=
  ∀ c, stage.judge c = .drop ∨ stage.judge c = .pass

theorem Stage.onlyDrops_dropping (name : String) (p : Candidate → Bool) :
    (Stage.dropping name p).OnlyDrops := by
  intro c
  cases h : p c <;> simp [Stage.dropping, h]

/-- Stages that only drop have one opinion between them. -/
theorem judge_eq_drop (h : ∀ stage ∈ stages, stage.OnlyDrops) (hpass : judge stages c ≠ .pass) :
    judge stages c = .drop := by
  obtain ⟨front, stage, back, rfl, hstage, -⟩ := (judge_eq_iff hpass).1 rfl
  rcases h stage (by simp) c with hdrop | hnone
  · exact hstage.symm.trans hdrop
  · exact absurd (hstage.symm.trans hnone) hpass

/-- **Stages that only drop, in another order or more often, say the same.** -/
theorem judge_congr (h : ∀ stage ∈ others, stage.OnlyDrops)
    (hsame : ∀ stage, stage ∈ stages ↔ stage ∈ others) : judge stages c = judge others c := by
  have hiff : judge stages c = .pass ↔ judge others c = .pass := by
    simp only [judge_eq_pass_iff, hsame]
  by_cases hpass : judge others c = .pass
  · rw [hpass, hiff, hpass]
  · have hstages : ∀ stage ∈ stages, stage.OnlyDrops := by simpa only [hsame] using h
    rw [judge_eq_drop h hpass, judge_eq_drop hstages (mt hiff.1 hpass)]

/-- **One more stage behind those that only drop.** What stands behind it has been asked before. -/
theorem judge_reordered (h : ∀ stage ∈ drops, stage.OnlyDrops)
    (hfront : ∀ stage, stage ∈ front ↔ stage ∈ drops)
    (hback : ∀ stage ∈ back, stage ∈ drops ++ [last]) :
    judge (front ++ last :: back) c = judge (drops ++ [last]) c := by
  rw [judge_append, judge_append, judge_congr h hfront]
  by_cases hpass : judge drops c = .pass
  · rw [if_pos hpass, if_pos hpass, judge_cons, judge_cons]
    by_cases hlast : last.judge c = .pass
    · rw [if_pos hlast, if_pos hlast]
      refine judge_eq_pass_iff.2 fun stage hstage => ?_
      rcases List.mem_append.1 (hback stage hstage) with hdrop | hsame
      · exact judge_eq_pass_iff.1 hpass stage hdrop
      · rwa [List.mem_singleton.1 hsame]
    · rw [if_neg hlast, if_neg hlast]
  · rw [if_neg hpass, if_neg hpass]

end Judging

/-! ## Findings -/

namespace Stage

/-- The stages for secrets that only drop. -/
def secretDrops : List Stage :=
  [commentLine, regexLiteral, inlineOptOut, ruleDefinition, placeholderLine, placeholderValue]

theorem onlyDrops_secretDrops : ∀ stage ∈ secretDrops, stage.OnlyDrops := by
  simp [secretDrops, commentLine, regexLiteral, inlineOptOut, ruleDefinition, placeholderLine,
    placeholderValue, onlyDrops_dropping]

theorem onlyDrops_forInsecure : ∀ stage ∈ forInsecure, stage.OnlyDrops := by
  simp [forInsecure, commentLine, regexLiteral, inlineOptOut, ruleDefinition, testSource,
    onlyDrops_dropping]

theorem loopbackDatabase_not_mem_secretDrops : loopbackDatabase ∉ secretDrops := by
  intro h
  have hname : loopbackDatabase.name ∈ secretDrops.map Stage.name := List.mem_map_of_mem h
  exact absurd hname (by decide)

theorem mem_secretDrops {stage : Stage} (h : stage ∈ forSecrets) (hne : stage ≠ loopbackDatabase) :
    stage ∈ secretDrops := by
  have hmem : stage ∈ secretDrops ++ [loopbackDatabase] := h
  exact (List.mem_append.1 hmem).resolve_right (by simpa using hne)

end Stage

namespace RuleSet

variable {set : RuleSet} {stage last : Stage} {stages : List Stage} {path : String}
  {content : List Char}

/-- The rule set with other stages. -/
def withStages (set : RuleSet) (stages : List Stage) : RuleSet := { set with stages := stages }

/-- Stages that say the same of all candidates give the same findings. -/
theorem scanContent_withStages (h : ∀ c, judge stages c = judge set.stages c) :
    (set.withStages stages).scanContent path content = set.scanContent path content := by
  have hrule : (set.withStages stages).ruleFindings = set.ruleFindings := by
    funext source path rule
    simp only [ruleFindings, withStages, h]
    rfl
  simp only [scanContent, rawFindings, hrule]
  rfl

/-- The text has no findings, but a match of a rule that the stage alone drops. Another stage, or it
itself, has an opinion on this match, too. -/
def Isolates (set : RuleSet) (stage last : Stage) (path : String) (content : List Char) : Prop :=
  content ≠ [] ∧ set.scanContent path content = [] ∧
    ∃ rule ∈ set.rulesFor path, ∃ hit ∈ rule.pattern.findAll content,
      last.judge (rule.candidate (.ofContent content) path hit) ≠ .pass ∧
        ∀ other ∈ set.stages,
          other.judge (rule.candidate (.ofContent content) path hit) = .drop →
            other.name = stage.name

instance : Decidable (Isolates set stage last path content) :=
  inferInstanceAs (Decidable (_ ∧ _ ∧ _))

/-- **A stage that alone drops a match has to be asked**, and before any other opinion on it. -/
theorem Isolates.exists_split (h : set.Isolates stage last path content) (hcap : 0 < set.cap)
    (hnames : (set.stages.map Stage.name).Nodup) (hstage : stage ∈ set.stages)
    (hstages : ∀ other ∈ stages, other ∈ set.stages)
    (hsame : (set.withStages stages).scanContent path content = set.scanContent path content) :
    ∃ front back, stages = front ++ stage :: back ∧ last ∉ front := by
  obtain ⟨hcontent, hnone, rule, hrule, hit, hhit, hlast, halone⟩ := h
  have hdrop : judge stages (rule.candidate (.ofContent content) path hit) = .drop := by
    by_contra hdrop
    have hcap' : 0 < (set.withStages stages).cap := hcap
    obtain ⟨_, -, -, hmem⟩ := exists_mem_scanContent hcap' hcontent hrule hhit hdrop
    rw [hsame, hnone] at hmem
    cases hmem
  obtain ⟨front, first, back, rfl, hfirst, hfront⟩ := (judge_eq_iff (by simp)).1 hdrop
  have hmem : first ∈ set.stages := hstages first (by simp)
  obtain rfl : first = stage :=
    List.inj_on_of_nodup_map hnames hmem hstage (halone first hmem hfirst)
  exact ⟨front, back, rfl, fun hin => hlast (hfront last hin)⟩

/-- Texts with credentials for a database on this machine that one stage alone drops. -/
def isolatedSecrets : List (Stage × String) :=
  [(.commentLine, "#redis://u:p@::1"), (.regexLiteral, "/redis://u:p@::1"),
   (.inlineOptOut, "redis://u:p@::1 #nosec"), (.ruleDefinition, "name:'redis://u:p@::1"),
   (.placeholderLine, "redis://u:p@::1 todo"), (.placeholderValue, "redis://dev:p@::1")]

/-- Paths and texts with insecure code that one stage alone drops. -/
def isolatedInsecure : List (Stage × String × String) :=
  [(.commentLine, "a.js", "#eval("), (.regexLiteral, "a.js", "/eval("),
   (.inlineOptOut, "a.js", "eval(//nosec"), (.ruleDefinition, "a.js", "name:'eval("),
   (.testSource, "a.test.js", "http://localhost")]

/-- **Every stage alone drops some text**, and the credentials are of low severity if none does. -/
theorem isolates_texts :
    (∀ row ∈ isolatedSecrets, secrets.Isolates row.1 .loopbackDatabase "a.py" row.2.toList) ∧
    (∀ row ∈ isolatedInsecure, insecure.Isolates row.1 row.1 row.2.1 row.2.2.toList) ∧
    isFixture "a.py" "redis://u:p@::1".toList = false ∧
    ∃ f ∈ secrets.scanContent "a.py" "redis://u:p@::1".toList, f.severity = .low := by
  decide +kernel

/-- Credentials for a database on this machine are of low severity because a stage says so. -/
theorem loopbackDatabase_mem (hstages : ∀ stage ∈ stages, stage ∈ Stage.forSecrets)
    (hsame : ∀ path content, (secrets.withStages stages).scanContent path content =
      secrets.scanContent path content) : .loopbackDatabase ∈ stages := by
  obtain ⟨-, -, hfixture, f, hf, hlow⟩ := isolates_texts
  rw [← hsame] at hf
  obtain ⟨rule, hrule, hit, -, hdrop, rfl⟩ := exists_hit_of_mem_scanContent hf
  by_contra hnot
  have hdrops : ∀ stage ∈ stages, stage.OnlyDrops := fun stage hstage =>
    Stage.onlyDrops_secretDrops stage
      (Stage.mem_secretDrops (hstages stage hstage) fun heq => hnot (heq ▸ hstage))
  have hverdict : ((secrets.withStages stages).judged "a.py" "redis://u:p@::1".toList rule
      hit).2 = .pass := by
    by_contra hpass
    exact hdrop (judge_eq_drop hdrops hpass)
  have hseverity : ∀ rule ∈ secrets.rules, rule.severity ≠ .low := by decide
  rw [report, hfixture, if_neg Bool.false_ne_true, hverdict] at hlow
  exact hseverity rule (List.mem_filter.1 hrule).1 hlow

/-- An element in front of the first `last` stands in front of every `last`. -/
theorem mem_front {front back front' back' : List Stage} (hne : stage ≠ last)
    (h : front ++ stage :: back = front' ++ last :: back') (hlast : last ∉ front) :
    stage ∈ front' := by
  rcases List.append_eq_append_iff.1 h with ⟨gap, rfl, hgap⟩ | ⟨gap, rfl, hgap⟩
  · cases gap with
    | nil => exact absurd (List.cons.inj hgap).1 hne
    | cons first gap =>
      obtain ⟨rfl, -⟩ := List.cons.inj hgap
      simp
  · cases gap with
    | nil => exact absurd (List.cons.inj hgap).1.symm hne
    | cons first gap =>
      obtain ⟨rfl, -⟩ := List.cons.inj hgap
      exact absurd (by simp) hlast

/-- **The order of the stages that only drop does not matter.** The findings of secrets in all texts
are as they are if and only if the part in front of some place of the stage that restates consists
of the other six stages, in any order and each of them any number of times. Those of insecure code
are as they are if and only if each of its five stages is there. -/
theorem scanContent_reordered (stages : List Stage) :
    ((∀ stage ∈ stages, stage ∈ Stage.forSecrets) →
      ((∀ path content, (secrets.withStages stages).scanContent path content =
          secrets.scanContent path content) ↔
        ∃ front back, stages = front ++ .loopbackDatabase :: back ∧
          ∀ stage, stage ∈ front ↔ stage ∈ Stage.secretDrops)) ∧
    ((∀ stage ∈ stages, stage ∈ Stage.forInsecure) →
      ((∀ path content, (insecure.withStages stages).scanContent path content =
          insecure.scanContent path content) ↔
        ∀ stage, stage ∈ stages ↔ stage ∈ Stage.forInsecure)) := by
  refine ⟨fun hstages => ⟨fun hsame => ?_, ?_⟩, fun hstages => ⟨fun hsame stage => ?_, ?_⟩⟩
  · obtain ⟨front, back, rfl, hfirst⟩ :=
      List.eq_append_cons_of_mem (loopbackDatabase_mem hstages hsame)
    refine ⟨front, back, rfl, fun stage => ⟨fun hstage => ?_, fun hstage => ?_⟩⟩
    · refine Stage.mem_secretDrops (hstages stage (by simp [hstage])) ?_
      rintro rfl
      exact hfirst hstage
    · -- For each stage there is a text that only this stage drops, so that it may not be left out
      -- or come too late.
      have htable : isolatedSecrets.map Prod.fst = Stage.secretDrops := rfl
      obtain ⟨row, hrow, rfl⟩ := List.mem_map.1 (htable ▸ hstage)
      obtain ⟨front', back', hsplit, hlast⟩ := (isolates_texts.1 row hrow).exists_split (by decide)
        (by decide) (List.mem_append_left _ hstage) hstages (hsame _ _)
      refine mem_front ?_ hsplit.symm hlast
      rintro hloopback
      exact Stage.loopbackDatabase_not_mem_secretDrops (hloopback ▸ hstage)
  · rintro ⟨front, back, rfl, hfront⟩ path content
    refine scanContent_withStages fun c => judge_reordered Stage.onlyDrops_secretDrops hfront ?_
    exact fun stage hstage => hstages stage (by simp [hstage])
  · refine ⟨hstages stage, fun hstage => ?_⟩
    have htable : isolatedInsecure.map Prod.fst = Stage.forInsecure := rfl
    obtain ⟨row, hrow, rfl⟩ := List.mem_map.1 (htable ▸ hstage)
    obtain ⟨front, back, rfl, -⟩ := (isolates_texts.2.1 row hrow).exists_split (by decide)
      (by decide) hstage hstages (hsame _ _)
    simp
  · exact fun hall path content =>
      scanContent_withStages fun c => judge_congr Stage.onlyDrops_forInsecure hall

/-- All stages that only drop are asked twice, first from the last to the first. -/
theorem scanContent_asked_twice :
    (∀ path content, (secrets.withStages (Stage.secretDrops.reverse ++ Stage.secretDrops ++
        [.loopbackDatabase])).scanContent path content = secrets.scanContent path content) ∧
    ∀ path content, (insecure.withStages (Stage.forInsecure.reverse ++
        Stage.forInsecure)).scanContent path content = insecure.scanContent path content := by
  refine ⟨((scanContent_reordered _).1 ?_).2 ⟨_, [], rfl, by simp⟩,
    ((scanContent_reordered _).2 (by simp)).2 (by simp)⟩
  simp [Stage.secretDrops, Stage.forSecrets]

end RuleSet

end WorkspaceAudit
