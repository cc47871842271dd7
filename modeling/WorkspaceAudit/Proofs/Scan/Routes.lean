import WorkspaceAudit.Proofs.Scan.Totality

/-!
# Which routes are reported

A project whose sources use a server framework and nowhere mention authentication is reported as a
whole; in all others each route that changes data is judged by the lines near it. The scan leaves
out one case: sources with neither a mention nor a framework are not searched for routes at all.

- `mentionsAuthentication_joinLines`: a text mentions authentication iff one of its lines does.
- `mem_unprotectedRoutes`: the routes that are reported in a source are the declared ones without a
  mention near them. The search for a call in front of it changes nothing.
- `routesByRule`: the findings by the rule for both kinds of projects;
  `routeFindings_eq_byRule_iff`: the findings of a scan are these iff no route is left out.
- `scanRoutes_byRule`: all of this for a project.
-/

namespace WorkspaceAudit

/-! ## Mentions of authentication -/

/-- Words that stand on one line are found in a text iff they are found in one of its lines. -/
theorem found_words_joinLines {texts : List String} {lines : List (List Char)}
    (htexts : ∀ s ∈ texts, s.toList ≠ [] ∧ '\n' ∉ s.toList) :
    (Pattern.words texts).found (Text.joinLines lines) = true ↔
      ∃ line ∈ lines, (Pattern.words texts).found line = true := by
  have hword {w : List Char} {s : String} (hs : s ∈ texts) (hw : w.map Text.foldLatin = s.toList) :
      w <:+: Text.joinLines lines ↔ ∃ line ∈ lines, w <:+: line := by
    obtain ⟨hne, hline⟩ := htexts s hs
    apply Text.infix_joinLines_iff
    · rintro rfl
      exact hne hw.symm
    · intro hmem
      apply hline
      rw [← hw]
      exact List.mem_map.2 ⟨'\n', hmem, rfl⟩
  simp only [Pattern.found_words_iff]
  constructor
  · rintro ⟨w, hinfix, s, hs, hw⟩
    obtain ⟨line, hmem, hinfix⟩ := (hword hs hw).1 hinfix
    exact ⟨line, hmem, w, hinfix, s, hs, hw⟩
  · rintro ⟨line, hmem, w, hinfix, s, hs, hw⟩
    exact ⟨w, (hword hs hw).2 ⟨line, hmem, hinfix⟩, s, hs, hw⟩

/-- **A text mentions authentication iff one of its lines does.** -/
theorem mentionsAuthentication_joinLines {lines : List (List Char)} :
    mentionsAuthentication (Text.joinLines lines) = true ↔
      ∃ line ∈ lines, mentionsAuthentication line = true :=
  found_words_joinLines (by decide)

/-- Authentication is mentioned near a line: in one of the two lines before it, in the line itself
or in one of the five after it. -/
def Located.MentionsNear (source : Located) (number : Nat) : Prop :=
  ∃ other : Nat, number ≤ other + 2 ∧ other ≤ number + 5 ∧
    mentionsAuthentication (source.lineText other) = true

theorem mem_routeWindow {source : Located} {number : Nat} {line : List Char} :
    line ∈ routeWindow source number ↔
      ∃ i, number ≤ i + 3 ∧ i < number + 5 ∧ source.lines[i]? = some line := by
  unfold routeWindow
  rw [List.mem_iff_getElem?]
  simp only [List.getElem?_drop, List.getElem?_take]
  constructor
  · rintro ⟨i, hi⟩
    split at hi
    · exact ⟨number - 3 + i, by omega, by omega, hi⟩
    · cases hi
  · rintro ⟨i, hfirst, hlast, hi⟩
    refine ⟨i - (number - 3), ?_⟩
    rw [if_pos (by omega), Nat.add_sub_cancel' (by omega), hi]

/-- The lines around a line mention authentication iff it is mentioned near. -/
theorem mentionsAuthentication_routeWindow {source : Located} {number : Nat} :
    mentionsAuthentication (Text.joinLines (routeWindow source number)) = true ↔
      source.MentionsNear number := by
  simp only [mentionsAuthentication_joinLines, mem_routeWindow]
  constructor
  · rintro ⟨line, ⟨i, hfirst, hlast, hi⟩, hline⟩
    refine ⟨i + 1, by omega, by omega, ?_⟩
    have htext : source.lineText (i + 1 : Nat) = line := by
      rw [Located.lineText, if_pos (by omega)]
      simp [hi]
    rw [htext]
    exact hline
  · rintro ⟨other, hfirst, hlast, hline⟩
    unfold Located.lineText at hline
    split at hline
    · cases hget : source.lines[((other : Int) - 1).toNat]? with
      | none =>
        rw [hget] at hline
        cases hline
      | some line =>
        rw [hget] at hline
        exact ⟨line, ⟨_, by omega, by omega, hget⟩, hline⟩
    · cases hline

/-- A text without a mention has none near any of its lines. -/
theorem not_mentionsNear {content : List Char} (h : mentionsAuthentication content = false)
    (number : Nat) : ¬(Located.ofContent content).MentionsNear number := by
  rw [← mentionsAuthentication_routeWindow, mentionsAuthentication_joinLines]
  rintro ⟨line, hmem, hline⟩
  have hlines : line ∈ Text.splitLines content := List.mem_of_mem_take (List.mem_of_mem_drop hmem)
  have hcontent : mentionsAuthentication (Text.joinLines (Text.splitLines content)) = true :=
    mentionsAuthentication_joinLines.2 ⟨line, hlines, hline⟩
  rw [Text.joinLines_splitLines, h] at hcontent
  cases hcontent

/-! ## Routes in a source -/

/-- A text in which a route is declared has a call that declares one. -/
theorem found_mutationCall {content : List Char} (h : Mark.mutationRoute.found content = true) :
    Mark.mutationCall.found content = true := by
  obtain ⟨pre, w, post, rfl, hspans⟩ := Pattern.found_iff.1 h
  -- The declaration begins with the call.
  obtain ⟨call, address, rfl, hcall, -⟩ := (@Pattern.spans_chain_append pre w post
    [Mark.routeOwner, .lit ".", .capture 1 Mark.routeMethod, .blanks, .lit "("] _).1 hspans
  refine Pattern.found_iff.2 ⟨pre, call, address ++ post, by simp, ?_⟩
  simpa only [Mark.mutationCall, Pattern.spans_chain_cons, Pattern.Spans] using hcall

theorem findAll_mutationRoute {content : List Char} (h : ¬Mark.mutationCall.found content = true) :
    Mark.mutationRoute.findAll content = [] := by
  rw [Pattern.findAll_eq_nil_iff, ← Bool.not_eq_true]
  exact mt found_mutationCall h

/-- The finding of a route that is declared in a text. -/
def routeReport (path : String) (content : List Char) (hit : Pattern.Hit) : Finding :=
  routeFinding path ((Located.ofContent content).lineNumberAt hit.start)
    ((hit.group? 1).getD []) ((hit.group? 2).getD [])

/-- **The routes that are reported are the declared ones without a mention near them.** -/
theorem mem_unprotectedRoutes {path : String} {content : List Char} {f : Finding} :
    f ∈ unprotectedRoutes path content ↔ ∃ hit ∈ Mark.mutationRoute.findAll content,
      ¬(Located.ofContent content).MentionsNear
        ((Located.ofContent content).lineNumberAt hit.start) ∧
      f = routeReport path content hit := by
  unfold unprotectedRoutes
  split
  · simp only [List.mem_filterMap, ← mentionsAuthentication_routeWindow, routeReport]
    refine exists_congr fun hit => and_congr_right fun _ => ?_
    split
    · simp [*]
    · simp [*, eq_comm]
  · rename_i hcall
    simp [findAll_mutationRoute hcall]

/-- In a text without a mention all routes that are declared are reported. -/
theorem unprotectedRoutes_eq_nil_iff {path : String} {content : List Char}
    (h : mentionsAuthentication content = false) :
    unprotectedRoutes path content = [] ↔ Mark.mutationRoute.found content = false := by
  rw [← Pattern.findAll_eq_nil_iff]
  simp only [List.eq_nil_iff_forall_not_mem, mem_unprotectedRoutes, not_exists, not_and]
  constructor
  · intro hnone hit hmem
    exact hnone _ hit hmem (not_mentionsNear h _) rfl
  · intro hnone f hit hmem
    exact absurd hmem (hnone hit)

/-! ## Routes in the sources of a project -/

/-- Some source mentions authentication. -/
def anyMentions (sources : List (String × List Char)) : Bool :=
  sources.any fun source => mentionsAuthentication source.2

/-- Some source uses a server framework. -/
def anyFramework (sources : List (String × List Char)) : Bool :=
  sources.any fun source => Mark.serverFramework.found source.2

/-- The findings by the rule: a server without any authentication is reported as a whole, and in
all other projects each route without a mention near it. -/
def routesByRule (sources : List (String × List Char)) : List Finding :=
  if !anyMentions sources && anyFramework sources then [noAuthentication]
  else sources.flatMap fun source => unprotectedRoutes source.1 source.2

/-- The sources have a route that the scan leaves out: they neither mention authentication nor use
a server framework. -/
def LeavesOut (sources : List (String × List Char)) : Prop :=
  anyMentions sources = false ∧ anyFramework sources = false ∧
    ∃ source ∈ sources, Mark.mutationRoute.found source.2 = true

theorem routeFindings_eq_byRule {sources : List (String × List Char)}
    (h : anyMentions sources = true ∨ anyFramework sources = true) :
    routeFindings sources = routesByRule sources := by
  show (if anyMentions sources then _ else if anyFramework sources then _ else _) = _
  unfold routesByRule
  cases hmentions : anyMentions sources with
  | true => rfl
  | false =>
    have hframework : anyFramework sources = true := by simpa [hmentions] using h
    simp [hframework]

theorem routeFindings_eq_nil {sources : List (String × List Char)}
    (hmentions : anyMentions sources = false) (hframework : anyFramework sources = false) :
    routeFindings sources = [] := by
  show (if anyMentions sources then _ else if anyFramework sources then _ else _) = _
  simp [hmentions, hframework]

/-- **The findings are those by the rule iff no route is left out.** -/
theorem routeFindings_eq_byRule_iff {sources : List (String × List Char)} :
    routeFindings sources = routesByRule sources ↔ ¬LeavesOut sources := by
  by_cases hknown : anyMentions sources = true ∨ anyFramework sources = true
  · have hnot : ¬LeavesOut sources := by
      rintro ⟨hmentions, hframework, -⟩
      simp [hmentions, hframework] at hknown
    simp [routeFindings_eq_byRule hknown, hnot]
  obtain ⟨hmentions, hframework⟩ : anyMentions sources = false ∧ anyFramework sources = false := by
    simpa using hknown
  have hsource : ∀ source ∈ sources, mentionsAuthentication source.2 = false := by
    simpa [anyMentions] using hmentions
  rw [routeFindings_eq_nil hmentions hframework, routesByRule, hmentions, hframework]
  simp only [Bool.not_false, Bool.and_false, Bool.false_eq_true, if_false, LeavesOut, hmentions,
    hframework, true_and, not_exists, not_and, Bool.not_eq_true]
  rw [eq_comm, List.flatMap_eq_nil_iff]
  exact forall₂_congr fun source hmem => unprotectedRoutes_eq_nil_iff (hsource source hmem)

/-- The path and the text of a file below a folder, if it can be read. -/
def Disk.source? (d : Disk) (root : Path) (names : List String) : Option (String × List Char) :=
  match d.readSource (root.extend names) with
  | .ok content => some (Selection.pathText names, content)
  | .error _ => none

/-- **Projects are reported by the rule, but for the routes that are left out.** The sources of a
project that is there are its collected files that can be read, in their order, unless the walk
comes to a path that is too long to ask about, which ends the scan. If no source mentions
authentication and some source uses a server framework, the one finding is that of a server without
any. If some source mentions authentication, the findings are the routes in the sources that are
declared without a mention near them. If neither holds, there are no findings, so the rule is broken
iff a route is declared then. -/
theorem scanRoutes_byRule (d : Disk) (project : Path) (hdisk : d.top.Named IsEntryName)
    (hhere : Node.Straight d.top d.here.reverse) (hproject : d.isFolder? project = .ok true) :
    ∃ root, d.resolve project = .ok root ∧
      (d.MeetsTooLong routeSelection root → scanRoutes d project = .error .nameTooLong) ∧
      (¬d.MeetsTooLong routeSelection root → ∃ files : List (List String),
        (∀ names, names ∈ files ↔ d.Collects routeSelection root names) ∧
        files.Pairwise (· < ·) ∧ ∃ sources, sources = files.filterMap (d.source? root) ∧
          (anyMentions sources = false → anyFramework sources = true →
            scanRoutes d project = .ok [noAuthentication]) ∧
          (anyMentions sources = true → scanRoutes d project =
            .ok (sources.flatMap fun source => unprotectedRoutes source.1 source.2)) ∧
          (anyMentions sources = false → anyFramework sources = false →
            scanRoutes d project = .ok []) ∧
          (scanRoutes d project = .ok (routesByRule sources) ↔ ¬LeavesOut sources) ∧
          ∀ source ∈ sources, ∀ f, f ∈ unprotectedRoutes source.1 source.2 ↔
            ∃ hit ∈ Mark.mutationRoute.findAll source.2,
              ¬(Located.ofContent source.2).MentionsNear
                ((Located.ofContent source.2).lineNumberAt hit.start) ∧
              f = routeReport source.1 source.2 hit) := by
  obtain ⟨place, hresolve, -, -⟩ := Disk.resolve_project hdisk hhere hproject
  refine ⟨⟨.root, place⟩, hresolve, ?_⟩
  rcases Disk.collect_of_resolve routeSelection hdisk hresolve with
    ⟨hlong, hcollect⟩ | ⟨hshort, files, hcollect, hmem, hsorted⟩
  · refine ⟨fun _ => ?_, fun hshort => absurd hlong hshort⟩
    simp only [scanRoutes, Disk.routeSources, hcollect, bind, Except.bind, Except.map]
  refine ⟨fun hlong => absurd hlong hshort, fun _ => ⟨files, hmem, hsorted, _, rfl, ?_⟩⟩
  have hscan : scanRoutes d project =
      .ok (routeFindings (files.filterMap (d.source? ⟨.root, place⟩))) := by
    simp only [scanRoutes, Disk.routeSources, hcollect, bind, Except.bind]
    rfl
  generalize files.filterMap (d.source? ⟨.root, place⟩) = sources at hscan
  rw [hscan]
  refine ⟨fun hmentions hframework => ?_, fun hmentions => ?_, fun hmentions hframework => ?_, ?_,
    fun _ _ _ => mem_unprotectedRoutes⟩
  · rw [routeFindings_eq_byRule (.inr hframework), routesByRule]
    simp [hmentions, hframework]
  · rw [routeFindings_eq_byRule (.inl hmentions), routesByRule]
    simp [hmentions]
  · rw [routeFindings_eq_nil hmentions hframework]
  · rw [Except.ok.injEq, routeFindings_eq_byRule_iff]

/-- A disk with these files at its top. -/
def filesDisk (files : List (String × String)) : Disk where
  top := .folder (files.map fun file => (file.1, .file (Text.Utf8.encode file.2.toList)))
  here := []
  closed := []

theorem named_filesDisk {files : List (String × String)} (hnodup : (files.map Prod.fst).Nodup)
    (hnames : ∀ file ∈ files, IsEntryName file.1) : (filesDisk files).top.Named IsEntryName := by
  refine .folder ?_ (fun entry hentry => ?_) fun entry hentry => ?_
  · rw [List.map_map]
    exact hnodup
  all_goals obtain ⟨file, hfile, rfl⟩ := List.mem_map.1 hentry
  · exact hnames file hfile
  · exact .file _

theorem scanRoutes_mentioned :
    let d := filesDisk [("b.js", "// auth"), ("a.js", "app.post('/x', h)")]
    scanRoutes d ⟨.root, []⟩ = .ok [routeFinding "a.js" 1 "post".toList "/x".toList] ∧
      ∃ sources : List (String × List Char), anyMentions sources = true ∧
        scanRoutes d ⟨.root, []⟩ = .ok (routesByRule sources) := by
  intro d
  have hdisk : d.top.Named IsEntryName :=
    named_filesDisk (by decide) (by simp [IsEntryName, Node.IsPlain])
  have hvalue : (scanRoutes d ⟨.root, []⟩).toOption =
      some [routeFinding "a.js" 1 "post".toList "/x".toList] := by decide +kernel
  obtain ⟨root, -, hlong, hshort⟩ := scanRoutes_byRule d ⟨.root, []⟩ hdisk .root rfl
  obtain ⟨files, -, -, sources, -, hserver, -, hleft, hrule, -⟩ := hshort fun h => by
    rw [hlong h] at hvalue
    cases hvalue
  have hmentions : anyMentions sources = true := by
    rw [← Bool.not_eq_false]
    intro hmentions
    cases hframework : anyFramework sources with
    | true => simp [hserver hmentions hframework, Except.toOption, noAuthentication,
        routeFinding] at hvalue
    | false => simp [hleft hmentions hframework, Except.toOption] at hvalue
  have hscan := hrule.2 fun hleaves => by simp [hleaves.1] at hmentions
  refine ⟨?_, sources, hmentions, hscan⟩
  rw [hscan] at hvalue ⊢
  exact congrArg _ (Option.some.inj hvalue)

/-- **A route of a project without a framework is left out**, though nothing near it mentions
authentication. -/
theorem scanRoutes_ne_byRule :
    let text := "app.post('/x', h)"
    let d := filesDisk [("a.js", text)]
    d.top.Named IsEntryName ∧ d.isFolder? ⟨.root, []⟩ = .ok true ∧
      (d.routeSources ⟨.root, []⟩).toOption = some [("a.js", text.toList)] ∧
      routesByRule [("a.js", text.toList)] =
        [routeFinding "a.js" 1 "post".toList "/x".toList] ∧
      (scanRoutes d ⟨.root, []⟩).toOption = some [] := by
  intro text d
  have hdisk : d.top.Named IsEntryName :=
    named_filesDisk (by decide) (by simp [IsEntryName, Node.IsPlain])
  exact ⟨hdisk, rfl, by decide +kernel, by decide +kernel, by decide +kernel⟩

end WorkspaceAudit
