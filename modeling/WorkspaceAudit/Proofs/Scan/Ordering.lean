import WorkspaceAudit.Proofs.Files.Settling
import WorkspaceAudit.Proofs.Scan.Secrecy
import WorkspaceAudit.Proofs.Scan.Totality

/-!
# The order of findings

The findings in a project stand in the order of their files, those in a file in the order of the
table of rules, and those of a rule in the order of their lines. All three can be read off a
finding: its path names its file, and its title tells its rule.

- `RuleSet.Telling`: no title belongs to two rules; `RuleSet.position`: the place in the table of
  the rule that reports a finding, by the title alone.
- `RuleSet.Precedes`: the order of findings.
- `RuleSet.pairwise_scanContent`: it holds in a text, since matches are found from left to right and
  lines are counted that way.
- `RuleSet.pairwise_flatMap_findingsBelow`: it holds in files that stand in their order.
- `RuleSet.scanProject_relisted`: the order in which folders are listed has no part in a scan.
- `RuleSet.scanProject_ordered`: all of this for a project.
-/

namespace WorkspaceAudit

namespace Finding

/-- The names on the path of a finding. -/
def names (f : Finding) : List String := (f.location.path?.map slashParts).getD []

/-- The line of a finding. -/
def line (f : Finding) : Nat := f.location.line?.getD 0

end Finding

/-- The titles that the findings of a rule have: in its own words or in those for a database on this
machine, and each of them also in test data. -/
def Rule.titles (rule : Rule) : List String :=
  RuleSet.secretTitles rule ++ (RuleSet.secretTitles rule).map ("[test fixture] " ++ ·)

namespace RuleSet

variable {set : RuleSet} {path : String} {content : List Char} {f g : Finding} {rule : Rule}
  {hit : Pattern.Hit}

/-- The place in the table of the rule that a finding is of, which its title tells. -/
def position (set : RuleSet) (f : Finding) : Nat :=
  set.rules.findIdx fun rule => rule.titles.contains f.title

/-- In one file a finding stands in front of another one: by the rule, and then by the line. -/
def PrecedesInFile (set : RuleSet) (f g : Finding) : Prop :=
  set.position f < set.position g ∨ set.position f = set.position g ∧ f.line ≤ g.line

/-- A finding stands in front of another one: by the names on its path, then by the rule, and then
by the line. -/
def Precedes (set : RuleSet) (f g : Finding) : Prop :=
  f.names < g.names ∨ f.names = g.names ∧ set.PrecedesInFile f g

/-! ## Titles tell rules -/

/-- Titles tell the rules of a set: a finding is restated only if it is about a database on this
machine, and no title belongs to two rules. -/
structure Telling (set : RuleSet) : Prop where
  restates : ∀ {c words}, judge set.stages c = .restate words →
    c.rule.sparesLoopback = true ∧ words = Stage.loopbackWords c
  distinct : (set.rules.flatMap Rule.titles).Nodup

/-- The stages for insecure code restate nothing. -/
theorem judge_forInsecure_ne_restate {c : Candidate} {words : Restatement} :
    judge Stage.forInsecure c ≠ .restate words := by
  intro h
  have hnone : judge [] c = .restate words :=
    judge_dropping_cons_eq_restate <| judge_dropping_cons_eq_restate <|
      judge_dropping_cons_eq_restate <| judge_dropping_cons_eq_restate <|
        judge_dropping_cons_eq_restate h
  cases hnone

theorem telling (hset : set ∈ [secrets, insecure]) : set.Telling := by
  simp only [List.mem_cons, List.not_mem_nil, or_false] at hset
  rcases hset with rfl | rfl
  · exact ⟨judge_forSecrets_eq_restate, by decide +kernel⟩
  · exact ⟨fun h => absurd h judge_forInsecure_ne_restate, by decide +kernel⟩

/-- A finding has one of the titles of its rule. -/
theorem Telling.title_report_mem (hset : set.Telling)
    (hdrop : (set.judged path content rule hit).2 ≠ .drop) :
    (set.report path content (set.judged path content rule hit)).title ∈ rule.titles := by
  have hplain : (set.finding (set.judged path content rule hit).1
      (set.judged path content rule hit).2).title ∈ secretTitles rule := by
    cases hverdict : (set.judged path content rule hit).2 with
    | drop => exact absurd hverdict hdrop
    | pass => exact List.mem_cons_self
    | restate words =>
      obtain ⟨hspares, rfl⟩ := hset.restates hverdict
      have hspared : rule.sparesLoopback = true := hspares
      apply List.mem_cons_of_mem
      rw [if_pos hspared]
      exact List.mem_singleton.2 rfl
  unfold report
  split
  · exact List.mem_append_right _ (List.mem_map_of_mem hplain)
  · exact List.mem_append_left _ hplain

/-- A title of a rule tells the place of that rule. -/
theorem Telling.position_eq (hset : set.Telling) {i : Nat} (hi : i < set.rules.length)
    (htitle : f.title ∈ set.rules[i].titles) : set.position f = i := by
  obtain ⟨-, hdisjoint⟩ := List.nodup_flatMap.1 hset.distinct
  unfold position
  rw [List.findIdx_eq hi]
  refine ⟨by simpa using htitle, fun j hj => ?_⟩
  rw [← Bool.not_eq_true]
  intro hother
  have hothers := List.pairwise_iff_getElem.1 hdisjoint j i (Nat.lt_trans hj hi) hi hj
  exact hothers (by simpa using hother) htitle

theorem Telling.position_of_mem (hset : set.Telling) (hrule : rule ∈ set.rules)
    (htitle : f.title ∈ rule.titles) : set.rules[set.position f]? = some rule := by
  obtain ⟨i, hi, rfl⟩ := List.getElem_of_mem hrule
  rw [hset.position_eq hi htitle, List.getElem?_eq_getElem hi]

/-- The findings of a rule stand in front of those of the rules behind it. -/
theorem Telling.pairwise_rules (hset : set.Telling) :
    set.rules.Pairwise fun rule other => ∀ f g : Finding, f.title ∈ rule.titles →
      g.title ∈ other.titles → set.position f < set.position g := by
  apply List.pairwise_iff_getElem.2
  intro i j hi hj hij f g hf hg
  rw [hset.position_eq hi hf, hset.position_eq hj hg]
  exact hij

/-! ## Findings in a text -/

/-- The matches of a rule are on lines in their order. -/
theorem pairwise_lineNumber (set : RuleSet) (path : String) (content : List Char) (rule : Rule) :
    ((rule.pattern.findAll content).map (set.judged path content rule)).Pairwise
      fun j j' => j.1.lineNumber ≤ j'.1.lineNumber := by
  have hfinds := rule.pattern.findAll_finds content
  refine List.pairwise_map.2 (hfinds.pairwise.imp_of_mem fun {hit next} hhit _ hstop => ?_)
  obtain ⟨front, -, hfollows, -⟩ := hfinds.mem hhit
  have hstart : hit.start ≤ next.start := by
    have := hfollows.start
    have := hfollows.stop
    omega
  exact Int.ofNat_le.2 (Located.lineNumberAt_mono _ (Int.ofNat_le.2 hstart))

/-- **Findings in a text stand in the order of the rules and of their lines.** -/
theorem Telling.pairwise_scanContent (hset : set.Telling) (path : String) (content : List Char) :
    (set.scanContent path content).Pairwise set.PrecedesInFile := by
  by_cases hcontent : content = []
  · subst hcontent
    exact .nil
  have htitle {rule : Rule} {j : Candidate × Verdict}
      (hj : j ∈ survivors set.cap
        ((rule.pattern.findAll content).map (set.judged path content rule))) :
      (set.report path content j).title ∈ rule.titles := by
    obtain ⟨hmem, hdrop⟩ := mem_of_mem_survivors hj
    obtain ⟨hit, -, rfl⟩ := List.mem_map.1 hmem
    exact hset.title_report_mem hdrop
  rw [scanContent_eq_flatMap hcontent, List.pairwise_flatMap]
  -- Under one rule by the lines, and between two rules by their positions, which titles tell.
  constructor
  · intro rule hrule
    have hlines := (pairwise_lineNumber set path content rule).sublist
      (survivors_sublist set.cap _)
    refine List.pairwise_map.2 (hlines.imp_of_mem fun {j j'} hj hj' hle => .inr ⟨?_, ?_⟩)
    · obtain ⟨i, hi, rfl⟩ := List.getElem_of_mem (List.mem_filter.1 hrule).1
      rw [hset.position_eq hi (htitle hj), hset.position_eq hi (htitle hj')]
    · simp only [Finding.line, location_report, Location.line?, Option.getD_some]
      omega
  · refine (hset.pairwise_rules.filter _).imp fun {rule other} hless f hf g hg => .inl ?_
    obtain ⟨j, hj, rfl⟩ := List.mem_map.1 hf
    obtain ⟨j', hj', rfl⟩ := List.mem_map.1 hg
    exact hless _ _ (htitle hj) (htitle hj')

/-- The rule that a finding is of is the one at the place that its title tells. -/
theorem Telling.exists_hit (hset : set.Telling) (h : f ∈ set.scanContent path content) :
    ∃ rule hit, set.rules[set.position f]? = some rule ∧ hit ∈ rule.pattern.findAll content ∧
      f = set.report path content (set.judged path content rule hit) := by
  obtain ⟨rule, hrule, hit, hhit, hdrop, rfl⟩ := exists_hit_of_mem_scanContent h
  exact ⟨rule, hit, hset.position_of_mem (List.mem_filter.1 hrule).1 (hset.title_report_mem hdrop),
    hhit, rfl⟩

/-! ## Findings in files -/

variable {d d' : Disk} {project root : Path} {files : List (List String)}

theorem names_of_mem_findingsBelow {names : List String} (hne : names ≠ [])
    (hnames : ∀ name ∈ names, IsEntryName name) (h : f ∈ set.findingsBelow d root names) :
    f.names = names := by
  unfold Finding.names
  rw [path_of_mem_findingsBelow h, Option.map_some, Option.getD_some, Selection.pathText,
    slashParts_join hne fun name hname => (hnames name hname).2.1]

/-- **Findings in files that stand in their order stand in order.** -/
theorem Telling.pairwise_flatMap_findingsBelow (hset : set.Telling)
    (hfiles : ∀ names ∈ files, names ≠ [] ∧ ∀ name ∈ names, IsEntryName name)
    (hsorted : files.Pairwise (· < ·)) :
    (files.flatMap (set.findingsBelow d root)).Pairwise set.Precedes := by
  have hpath {names : List String} (hmem : names ∈ files) {f : Finding}
      (hf : f ∈ set.findingsBelow d root names) : f.names = names :=
    names_of_mem_findingsBelow (hfiles names hmem).1 (hfiles names hmem).2 hf
  rw [List.pairwise_flatMap]
  constructor
  · intro names hmem
    have hfile : (set.findingsBelow d root names).Pairwise set.PrecedesInFile := by
      unfold findingsBelow
      split
      · exact hset.pairwise_scanContent _ _
      · exact .nil
    exact hfile.imp_of_mem fun hf hg h => .inr ⟨(hpath hmem hf).trans (hpath hmem hg).symm, h⟩
  · refine hsorted.imp_of_mem fun hmem hmem' hlt f hf g hg => .inl ?_
    rw [hpath hmem hf, hpath hmem' hg]
    exact hlt

end RuleSet

namespace Disk

variable {d d' : Disk} {sel : Selection} {root : Path} {names : List String}

theorem Collects.isEntryName (h : d.Collects sel root names) (hdisk : d.top.Named IsEntryName) :
    ∀ name ∈ names, IsEntryName name := by
  obtain ⟨place, node, bytes, hlocate, hfile⟩ := h.file
  exact (hdisk.find? (locate_leads hlocate).2.1).forall_of_find? hfile

theorem Agrees.ignoreRules_eq (h : d.Agrees d') (root : Path) :
    d.ignoreRules root = d'.ignoreRules root := by
  unfold ignoreRules
  simp only [h.readSource_eq]

end Disk

namespace RuleSet

variable {set : RuleSet} {d d' : Disk} {project root : Path} {files : List (List String)}

/-! ## Findings in a project -/

/-- **The order in which folders are listed has no part in a scan.** -/
theorem scanProject_relisted (set : RuleSet) (h : d.Agrees d') (hdisk : d.top.Named IsEntryName)
    (hdisk' : d'.top.Named IsEntryName) (project : Path) :
    set.scanProject d' project = set.scanProject d project := by
  have hfile : set.scanFile d' = set.scanFile d := by
    funext root file
    unfold scanFile
    rw [h.readSource_eq, h.resolve_eq]
  have hfiles : set.scanFiles d' = set.scanFiles d := by
    funext root files
    unfold scanFiles
    rw [h.resolve_eq, hfile]
  unfold scanProject
  simp only [h.resolve_eq, h.ignoreRules_eq, h.collect_eq hdisk hdisk', hfiles]

/-- The findings in a folder are those in the files that are collected below it, in the order of
these files. -/
theorem scanProject_of_folder (set : RuleSet) (hdisk : d.top.Named IsEntryName)
    (hhere : Node.Straight d.top d.here.reverse) (hproject : d.isFolder? project = .ok true) :
    ∃ root, d.resolve project = .ok root ∧
      ((d.MeetsTooLong (set.selection (d.ignoreRules root)) root ∧
        set.scanProject d project = .error .nameTooLong) ∨
      (¬d.MeetsTooLong (set.selection (d.ignoreRules root)) root ∧
        ∃ files : List (List String),
          set.scanProject d project = .ok (files.flatMap (set.findingsBelow d root)) ∧
          (∀ names, names ∈ files ↔ d.Collects (set.selection (d.ignoreRules root)) root names) ∧
          files.Pairwise (· < ·))) := by
  obtain ⟨place, hresolve, -, hself⟩ := Disk.resolve_project hdisk hhere hproject
  refine ⟨⟨.root, place⟩, hresolve, ?_⟩
  rcases Disk.collect_of_resolve (set.selection (d.ignoreRules ⟨.root, place⟩)) hdisk hself with
    ⟨hlong, hcollect⟩ | ⟨hshort, files, hcollect, hmem, hsorted⟩
  · exact .inl ⟨hlong, by simp only [scanProject, hresolve, hcollect, bind, Except.bind]⟩
  · refine .inr ⟨hshort, files, ?_, hmem, hsorted⟩
    simp only [scanProject, hresolve, hcollect, bind, Except.bind]
    refine scanFiles_collected hdisk (Disk.resolve_anchor hself) hself fun names hnames => ?_
    have hcollects := (hmem names).1 hnames
    exact ⟨hcollects.below, hcollects.file⟩

/-- **The findings in a project stand in order**: by the names on the paths of their files, in a
file by the places of their rules in the table, and under a rule by their lines. Each of them is the
report of a match, in the text of a collected file, of the rule at the place that its title tells. A
scan gives such findings unless the walk comes to a path that is too long to ask about, and it is
the same in whatever order the folders are listed. -/
theorem scanProject_ordered (set : RuleSet) (hset : set ∈ [secrets, insecure]) (d : Disk)
    (project : Path) (hdisk : d.top.Named IsEntryName)
    (hhere : Node.Straight d.top d.here.reverse) (hproject : d.isFolder? project = .ok true) :
    (∃ root, d.resolve project = .ok root ∧
      (d.MeetsTooLong (set.selection (d.ignoreRules root)) root →
        set.scanProject d project = .error .nameTooLong) ∧
      (¬d.MeetsTooLong (set.selection (d.ignoreRules root)) root →
        ∃ findings, set.scanProject d project = .ok findings ∧ findings.Pairwise set.Precedes ∧
          ∀ f ∈ findings, ∃ rule content hit,
            d.Collects (set.selection (d.ignoreRules root)) root f.names ∧
            d.readSource (root.extend f.names) = .ok content ∧
            set.rules[set.position f]? = some rule ∧ hit ∈ rule.pattern.findAll content ∧
            f = set.report (Selection.pathText f.names) content
              (set.judged (Selection.pathText f.names) content rule hit) ∧
            f.line = (Located.ofContent content).lineNumberAt hit.start)) ∧
    ∀ d', d'.top.Named IsEntryName → d.Agrees d' →
      set.scanProject d' project = set.scanProject d project := by
  have htelling := telling hset
  refine ⟨?_, fun d' hdisk' h => scanProject_relisted set h hdisk hdisk' project⟩
  obtain ⟨root, hresolve, hscan⟩ := scanProject_of_folder set hdisk hhere hproject
  refine ⟨root, hresolve, ?_⟩
  rcases hscan with ⟨hlong, hscan⟩ | ⟨hshort, files, hscan, hmem, hsorted⟩
  · exact ⟨fun _ => hscan, fun hshort => absurd hlong hshort⟩
  refine ⟨fun hlong => absurd hlong hshort, fun _ => ⟨_, hscan, ?_, fun f hf => ?_⟩⟩
  · refine htelling.pairwise_flatMap_findingsBelow (fun names hnames => ?_) hsorted
    have hcollects := (hmem names).1 hnames
    exact ⟨hcollects.below, hcollects.isEntryName hdisk⟩
  · obtain ⟨names, hnames, hf⟩ := List.mem_flatMap.1 hf
    have hcollects := (hmem names).1 hnames
    obtain rfl := names_of_mem_findingsBelow hcollects.below (hcollects.isEntryName hdisk) hf
    unfold findingsBelow at hf
    split at hf
    case h_2 => cases hf
    case h_1 content hread =>
      obtain ⟨rule, hit, hrule, hhit, hreport⟩ := htelling.exists_hit hf
      refine ⟨rule, content, hit, hcollects, hread, hrule, hhit, hreport, ?_⟩
      rw [Finding.line, hreport, location_report]
      rfl

/-- A file with code of two rules, the later rule first, and a folder that stands in front of it
though the text of its path does not. -/
def unsortedEntries : List (String × Node) :=
  [("a.js", .file (Text.Utf8.encode "new Function(t)\neval(t)".toList)),
   ("a", .folder [("x.js", .file (Text.Utf8.encode "eval(t)".toList))])]

def unsortedDisk (entries : List (String × Node)) : Disk where
  top := .folder entries
  here := []
  closed := []

theorem named_unsortedDisk {entries : List (String × Node)} (h : entries.Perm unsortedEntries) :
    (unsortedDisk entries).top.Named IsEntryName := by
  have hnames : ∀ name ∈ "x.js" :: unsortedEntries.map Prod.fst, IsEntryName name := by
    simp [unsortedEntries, IsEntryName, Node.IsPlain]
  have hnodes : ∀ entry ∈ unsortedEntries, entry.2.Named IsEntryName := by
    simp only [unsortedEntries, List.forall_mem_cons]
    refine ⟨.file _, .folder (by simp) ?_ (List.forall_mem_singleton.2 (.file _)), by simp⟩
    exact List.forall_mem_singleton.2 (hnames "x.js" List.mem_cons_self)
  refine .folder ((h.map _).nodup_iff.2 (by decide)) (fun entry hentry => ?_) fun entry hentry => ?_
  · exact hnames _ (List.mem_cons_of_mem _ (List.mem_map_of_mem (h.mem_iff.1 hentry)))
  · exact hnodes entry (h.mem_iff.1 hentry)

theorem scanProject_unsortedDisk :
    ∃ findings, insecure.scanProject (unsortedDisk unsortedEntries) ⟨.root, []⟩ = .ok findings ∧
      findings.map (fun f => (f.names, insecure.position f, f.line)) =
        [(["a", "x.js"], 4, 1), (["a.js"], 4, 2), (["a.js"], 5, 1)] ∧
      findings.Pairwise insecure.Precedes ∧
      insecure.scanProject (unsortedDisk unsortedEntries.reverse) ⟨.root, []⟩ = .ok findings := by
  have hdisk := named_unsortedDisk (.refl unsortedEntries)
  have hreversed := named_unsortedDisk unsortedEntries.reverse_perm
  obtain ⟨⟨root, hresolve, hlong, hshort⟩, hrelisted⟩ := scanProject_ordered insecure
    (by simp) (unsortedDisk unsortedEntries) ⟨.root, []⟩ hdisk .root rfl
  have hkeys : (insecure.scanProject (unsortedDisk unsortedEntries) ⟨.root, []⟩).toOption.map
      (fun findings => findings.map fun f => (f.names, insecure.position f, f.line)) =
        some [(["a", "x.js"], 4, 1), (["a.js"], 4, 2), (["a.js"], 5, 1)] := by decide +kernel
  obtain ⟨findings, hscan, hordered, -⟩ := hshort fun h => by
    rw [hlong h] at hkeys
    cases hkeys
  rw [hscan] at hkeys
  refine ⟨findings, hscan, Option.some.inj hkeys, hordered, ?_⟩
  have hagrees : (unsortedDisk unsortedEntries).Agrees (unsortedDisk unsortedEntries.reverse) :=
    ⟨Node.agrees_of_perm unsortedEntries.reverse_perm.symm (by decide), rfl, rfl⟩
  rw [hrelisted _ hreversed hagrees, hscan]

end RuleSet

end WorkspaceAudit
