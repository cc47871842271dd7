import WorkspaceAudit.Proofs.Pattern.Hits
import WorkspaceAudit.Scan.Content

/-!
# What is reported in a text

The findings of a rule are cut off by a counter that goes down only at a candidate that passes.
Here the cut is told without the counter.

- `KeptUpTo cap alive kept`: `kept` is `alive` up to and including the `cap`-th element that passes.
- `survivors_keptUpTo`: this is what is left of the judged candidates once those that are dropped
  are taken out.
- `RuleSet.scanContent_capped`: the findings in a text, rule by rule.
- `RuleSet.exists_hit_of_mem_scanContent`: what each single finding comes from;
  `RuleSet.exists_mem_scanContent`: when a rule reports something.
-/

namespace WorkspaceAudit

/-- The number of candidates that pass, and so are reported in the words of their rule. -/
def passes (judged : List (Candidate × Verdict)) : Nat :=
  judged.countP fun j => j.2 == .pass

theorem passes_append_cons {front rest : List (Candidate × Verdict)} {j : Candidate × Verdict}
    (h : j.2 = .pass) : passes (front ++ j :: rest) = passes front + (passes rest + 1) := by
  simp [passes, h]

/-- `kept` is `alive` up to and including the `cap`-th element that passes: all of `alive` if fewer
pass, and nothing if the cap is zero. -/
def KeptUpTo (cap : Nat) (alive kept : List (Candidate × Verdict)) : Prop :=
  (cap = 0 ∧ kept = []) ∨
  (passes alive < cap ∧ kept = alive) ∨
  ∃ front last rest, alive = front ++ last :: rest ∧ last.2 = .pass ∧ passes front + 1 = cap ∧
    kept = front ++ [last]

namespace KeptUpTo

variable {cap : Nat} {alive kept : List (Candidate × Verdict)} {c : Candidate}

/-- A candidate that is reported in other words leaves the room as it is. -/
theorem cons_restate {words : Restatement} (h : KeptUpTo (cap + 1) alive kept) :
    KeptUpTo (cap + 1) ((c, .restate words) :: alive) ((c, .restate words) :: kept) := by
  rcases h with ⟨⟨⟩, _⟩ | ⟨hfew, rfl⟩ | ⟨front, last, rest, rfl, hlast, hcap, rfl⟩
  · exact .inr (.inl ⟨by simpa [passes] using hfew, rfl⟩)
  · exact .inr (.inr ⟨_ :: front, last, rest, rfl, hlast, by simpa [passes] using hcap, rfl⟩)

/-- A candidate that passes takes one place. -/
theorem cons_pass (h : KeptUpTo cap alive kept) :
    KeptUpTo (cap + 1) ((c, .pass) :: alive) ((c, .pass) :: kept) := by
  rcases h with ⟨rfl, rfl⟩ | ⟨hfew, rfl⟩ | ⟨front, last, rest, rfl, hlast, hcap, rfl⟩
  · exact .inr (.inr ⟨[], (c, .pass), alive, rfl, rfl, rfl, rfl⟩)
  · exact .inr (.inl ⟨by simpa [passes] using hfew, rfl⟩)
  · exact .inr (.inr ⟨_ :: front, last, rest, rfl, hlast, by simpa [passes] using hcap, rfl⟩)

/-- As many pass as there is room for. -/
theorem passes_eq (h : KeptUpTo cap alive kept) : passes kept = min cap (passes alive) := by
  rcases h with ⟨rfl, rfl⟩ | ⟨hfew, rfl⟩ | ⟨front, last, rest, rfl, hlast, hcap, rfl⟩
  · simp [passes]
  · omega
  · have hnil : passes [] = 0 := rfl
    rw [passes_append_cons hlast, passes_append_cons hlast, hnil]
    omega

/-- The last place is taken at one element. -/
theorem front_eq {front rest front' rest' : List (Candidate × Verdict)}
    {last last' : Candidate × Verdict} (h : front ++ last :: rest = front' ++ last' :: rest')
    (hlast : last.2 = .pass) (hlast' : last'.2 = .pass) (hpasses : passes front = passes front') :
    front ++ [last] = front' ++ [last'] := by
  rcases List.append_eq_append_iff.1 h with ⟨gap, rfl, hgap⟩ | ⟨gap, rfl, hgap⟩
  all_goals
    cases gap with
    | nil => simp_all
    | cons j gap =>
      obtain ⟨rfl, -⟩ := List.cons.inj hgap
      rw [passes_append_cons ‹_›] at hpasses
      omega

theorem unique {other : List (Candidate × Verdict)} (h : KeptUpTo cap alive kept)
    (h' : KeptUpTo cap alive other) : kept = other := by
  rcases h with ⟨rfl, rfl⟩ | ⟨hfew, rfl⟩ | ⟨front, last, rest, rfl, hlast, hcap, rfl⟩ <;>
    rcases h' with ⟨hzero, rfl⟩ | ⟨hfew', rfl⟩ | ⟨front', last', rest', heq, hlast', hcap', rfl⟩
  case inr.inl.inr.inr => rw [heq, passes_append_cons hlast'] at hfew; omega
  case inr.inr.inr.inl => rw [passes_append_cons hlast] at hfew'; omega
  case inr.inr.inr.inr => exact front_eq heq hlast hlast' (by omega)
  all_goals first | rfl | omega

end KeptUpTo

/-- **The counter keeps what stands up to the last place that is taken.** -/
theorem survivors_keptUpTo (cap : Nat) (judged : List (Candidate × Verdict)) :
    KeptUpTo cap (judged.filter fun j => j.2 != .drop) (survivors cap judged) := by
  fun_induction survivors cap judged with
  | case1 judged => exact .inl ⟨rfl, rfl⟩
  | case2 cap hcap => exact .inr (.inl ⟨Nat.pos_of_ne_zero hcap, rfl⟩)
  | case3 room c more ih => exact ih
  | case4 room c more ih => exact ih.cons_pass
  | case5 room c words more ih => exact ih.cons_restate

theorem mem_of_mem_survivors {cap : Nat} {judged : List (Candidate × Verdict)}
    {j : Candidate × Verdict} (h : j ∈ survivors cap judged) : j ∈ judged ∧ j.2 ≠ .drop := by
  have hprefix : survivors cap judged <+: judged.filter fun j => j.2 != .drop := by
    rcases survivors_keptUpTo cap judged with ⟨_, hkept⟩ | ⟨_, hkept⟩ |
      ⟨front, last, rest, halive, _, _, hkept⟩
    · simp [hkept]
    · simp [hkept]
    · rw [hkept, halive]
      exact ⟨rest, by simp⟩
  simpa using hprefix.subset h

/-- The survivors stand in the order of the candidates. -/
theorem survivors_sublist (cap : Nat) (judged : List (Candidate × Verdict)) :
    (survivors cap judged).Sublist judged := by
  fun_induction survivors cap judged with
  | case1 judged => exact List.nil_sublist judged
  | case2 cap hcap => exact .slnil
  | case3 room c more ih => exact ih.cons _
  | case4 room c more ih => exact ih.cons_cons _
  | case5 room c words more ih => exact ih.cons_cons _

/-- If there is any room, something is reported unless all is dropped. -/
theorem survivors_ne_nil {cap : Nat} {judged : List (Candidate × Verdict)}
    {j : Candidate × Verdict} (hcap : 0 < cap) (hj : j ∈ judged) (hdrop : j.2 ≠ .drop) :
    survivors cap judged ≠ [] := by
  intro hnil
  have halive : j ∈ judged.filter fun j => j.2 != .drop := by simpa using ⟨hj, hdrop⟩
  rcases survivors_keptUpTo cap judged with ⟨rfl, _⟩ | ⟨_, hkept⟩ | ⟨_, _, _, _, _, _, hkept⟩
  · exact Nat.lt_irrefl 0 hcap
  · rw [← hkept, hnil] at halive
    cases halive
  · rw [hnil] at hkept
    simp at hkept

namespace RuleSet

variable {set : RuleSet} {path : String} {content : List Char}

/-- The candidate of a match in a text, with what the stages say of it. -/
def judged (set : RuleSet) (path : String) (content : List Char) (rule : Rule)
    (hit : Pattern.Hit) : Candidate × Verdict :=
  let c := rule.candidate (.ofContent content) path hit
  (c, judge set.stages c)

/-- The judged matches of a rule in a text that are not dropped, in order of position. -/
def alive (set : RuleSet) (path : String) (content : List Char) (rule : Rule) :
    List (Candidate × Verdict) :=
  ((rule.pattern.findAll content).map (set.judged path content rule)).filter fun j => j.2 != .drop

/-- The finding of a judged candidate in a text, which may be test data. -/
def report (set : RuleSet) (path : String) (content : List Char) (j : Candidate × Verdict) :
    Finding :=
  if isFixture path content then (set.finding j.1 j.2).asFixture else set.finding j.1 j.2

theorem location_report (j : Candidate × Verdict) :
    (set.report path content j).location = .line j.1.path j.1.lineNumber.toNat := by
  obtain ⟨c, verdict⟩ := j
  unfold report
  split <;> cases verdict <;> rfl

theorem scanContent_eq_flatMap (hcontent : content ≠ []) :
    set.scanContent path content = (set.rulesFor path).flatMap fun rule =>
      (survivors set.cap ((rule.pattern.findAll content).map (set.judged path content rule))).map
        (set.report path content) := by
  have hrule : set.ruleFindings (.ofContent content) path = fun rule =>
      (survivors set.cap ((rule.pattern.findAll content).map (set.judged path content rule))).map
        fun j => set.finding j.1 j.2 := by
    funext rule
    simp only [ruleFindings, Rule.candidates, List.map_map]
    rfl
  have hempty : content.isEmpty = false := by simpa using hcontent
  simp only [scanContent, hempty, Bool.false_eq_true, if_false, rawFindings, hrule]
  cases hfixture : isFixture path content with
  | true =>
    have hreport : set.report path content =
        Finding.asFixture ∘ fun j => set.finding j.1 j.2 := by
      funext j
      simp [report, hfixture]
    simp [hreport, rulesFor, List.map_flatMap]
  | false =>
    have hreport : set.report path content = fun j => set.finding j.1 j.2 := by
      funext j
      simp [report, hfixture]
    simp [hreport, rulesFor]

/-- **The findings in a text.** Each rule for the path reports its matches that are not dropped up
to and including the one that fills the cap. Only those that pass count towards it, so as many of
them are reported as there are or as the cap allows. -/
theorem scanContent_capped (set : RuleSet) (path : String) (content : List Char) :
    ∃ kept : Rule → List (Candidate × Verdict),
      (∀ rule, rule.pattern.Finds [] content false (rule.pattern.findAll content) ∧
        (∀ other, KeptUpTo set.cap (set.alive path content rule) other ↔ other = kept rule) ∧
        passes (kept rule) = min set.cap (passes (set.alive path content rule))) ∧
      set.scanContent path content = if content = [] then [] else
        (set.rulesFor path).flatMap fun rule => (kept rule).map (set.report path content) := by
  refine ⟨fun rule =>
    survivors set.cap ((rule.pattern.findAll content).map (set.judged path content rule)),
    fun rule => ⟨rule.pattern.findAll_finds content, fun other => ?_, ?_⟩, ?_⟩
  · constructor
    · exact fun h => h.unique (survivors_keptUpTo ..)
    · rintro rfl
      exact survivors_keptUpTo ..
  · exact (survivors_keptUpTo ..).passes_eq
  · split
    · rename_i hempty
      simp [hempty, scanContent]
    · exact scanContent_eq_flatMap ‹_›

/-- What a finding in a text comes from. -/
theorem exists_hit_of_mem_scanContent {f : Finding} (h : f ∈ set.scanContent path content) :
    ∃ rule ∈ set.rulesFor path, ∃ hit ∈ rule.pattern.findAll content,
      (set.judged path content rule hit).2 ≠ .drop ∧
        f = set.report path content (set.judged path content rule hit) := by
  have hcontent : content ≠ [] := by
    rintro rfl
    cases h
  rw [scanContent_eq_flatMap hcontent] at h
  obtain ⟨rule, hrule, h⟩ := List.mem_flatMap.1 h
  obtain ⟨j, hj, rfl⟩ := List.mem_map.1 h
  obtain ⟨hmem, hdrop⟩ := mem_of_mem_survivors hj
  obtain ⟨hit, hhit, rfl⟩ := List.mem_map.1 hmem
  exact ⟨rule, hrule, hit, hhit, hdrop, rfl⟩

/-- A rule reports something if there is room and a match of it is not dropped. -/
theorem exists_mem_scanContent {rule : Rule} {hit : Pattern.Hit} (hcap : 0 < set.cap)
    (hcontent : content ≠ []) (hrule : rule ∈ set.rulesFor path)
    (hhit : hit ∈ rule.pattern.findAll content)
    (hdrop : (set.judged path content rule hit).2 ≠ .drop) :
    ∃ other ∈ rule.pattern.findAll content, (set.judged path content rule other).2 ≠ .drop ∧
      set.report path content (set.judged path content rule other) ∈
        set.scanContent path content := by
  have hne := survivors_ne_nil hcap (List.mem_map_of_mem hhit) hdrop
  obtain ⟨j, hj⟩ := List.exists_mem_of_ne_nil _ hne
  obtain ⟨hmem, hjdrop⟩ := mem_of_mem_survivors hj
  obtain ⟨other, hother, rfl⟩ := List.mem_map.1 hmem
  refine ⟨other, hother, hjdrop, ?_⟩
  rw [scanContent_eq_flatMap hcontent]
  exact List.mem_flatMap.2 ⟨rule, hrule, List.mem_map_of_mem hj⟩

end RuleSet

end WorkspaceAudit
