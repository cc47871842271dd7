import WorkspaceAudit.Proofs.Scan.Routes

/-!
# Routes and the lines near them

Whether a route is reported is decided by one search over the lines near it, put together to one
text. Here the same is told line by line, by the numbers of the lines.

- `Located.near`: the numbers of the lines near a line, cut off at both ends of the text.
- `Located.mentionedNear_eq`: the search over the lines put together gives the same answer as one
  search in each of them.
- `lineOf_eq`: the line of a match is told by the line feeds in front of it.
- `unprotectedRoutes_eq`: the findings are made of all declared routes without a mention near them,
  in their order. The search for a call in front of it leaves out none.
-/

namespace WorkspaceAudit

namespace Located

variable {source : Located} {number other : Nat}

/-- The numbers of the lines near a line: from two before it to five after it, as far as the text
has lines. -/
def near (source : Located) (number : Nat) : List Nat :=
  let first := max 1 (number - 2)
  let last := min source.lines.length (number + 5)
  List.range' first (last + 1 - first)

/-- One of the lines near a line mentions authentication. -/
def mentionedNear (source : Located) (number : Nat) : Bool :=
  (source.near number).any fun other => mentionsAuthentication (source.lineText other)

theorem mem_near : other ∈ source.near number ↔
    max 1 (number - 2) ≤ other ∧ other ≤ min source.lines.length (number + 5) := by
  simp only [near, List.mem_range'_1]
  omega

/-- Only a line that is there mentions anything. -/
theorem line_of_mentions (h : mentionsAuthentication (source.lineText other) = true) :
    1 ≤ other ∧ other ≤ source.lines.length := by
  unfold lineText at h
  split at h
  · cases hline : source.lines[((other : Int) - 1).toNat]? with
    | none =>
      rw [hline] at h
      cases h
    | some line =>
      obtain ⟨hlength, -⟩ := List.getElem?_eq_some_iff.1 hline
      omega
  · cases h

theorem mentionedNear_iff : source.mentionedNear number = true ↔ source.MentionsNear number := by
  simp only [mentionedNear, List.any_eq_true, mem_near, MentionsNear]
  constructor
  · rintro ⟨other, ⟨hfirst, hlast⟩, hmentions⟩
    exact ⟨other, by omega, by omega, hmentions⟩
  · rintro ⟨other, hfirst, hlast, hmentions⟩
    obtain ⟨hone, hlength⟩ := line_of_mentions hmentions
    exact ⟨other, ⟨by omega, by omega⟩, hmentions⟩

/-- **The lines near a line are searched one by one**, or put together: the answer is the same. -/
theorem mentionedNear_eq : mentionsAuthentication (Text.joinLines (routeWindow source number)) =
    source.mentionedNear number := by
  rw [Bool.eq_iff_iff, mentionsAuthentication_routeWindow, mentionedNear_iff]

end Located

/-- The number of the line that a match in a text starts on: one more than the line feeds in front
of it. -/
def lineOf (content : List Char) (hit : Pattern.Hit) : Nat :=
  1 + (content.take hit.start).count '\n'

theorem lineOf_eq {p : Pattern} {content : List Char} {hit : Pattern.Hit}
    (h : hit ∈ p.findAll content) :
    (Located.ofContent content).lineNumberAt hit.start = lineOf content hit := by
  obtain ⟨front, hcontent, hfollows, -⟩ := (p.findAll_finds content).mem h
  rw [List.nil_append] at hcontent
  subst hcontent
  rw [lineOf, hfollows.start, Located.lineNumberAt_length, List.take_left, Nat.add_comm]

/-- No line near the route of a match mentions authentication. -/
def isUnguarded (content : List Char) (hit : Pattern.Hit) : Bool :=
  !(Located.ofContent content).mentionedNear (lineOf content hit)

/-- The finding of the route of a match, at the line that the match starts on. -/
def routeAt (path : String) (content : List Char) (hit : Pattern.Hit) : Finding :=
  routeFinding path (lineOf content hit) ((hit.group? 1).getD []) ((hit.group? 2).getD [])

/-- The declarations of routes in a text. -/
def routeHits (content : List Char) : List Pattern.Hit := Mark.mutationRoute.findAll content

/-- **The findings in a text**, in the order of the matches. -/
theorem unprotectedRoutes_eq (path : String) (content : List Char) :
    unprotectedRoutes path content =
      ((routeHits content).filter (isUnguarded content)).map (routeAt path content) := by
  rw [← List.filterMap_eq_map, List.filterMap_filter]
  unfold unprotectedRoutes
  split
  · refine List.filterMap_congr fun hit hmem => ?_
    dsimp only
    rw [isUnguarded, Function.comp_apply, routeAt, ← lineOf_eq hmem, Located.mentionedNear_eq]
    cases (Located.ofContent content).mentionedNear _ <;> rfl
  · rename_i hcall
    rw [routeHits, findAll_mutationRoute hcall, List.filterMap_nil]

/-- **Routes are reported by the lines near them, and by nothing else.** The matches are all
declarations of routes in the text, from left to right and without overlaps, and where there is one
the search for a call finds it. A match that starts on line `L`, after `L - 1` line feeds, gives one
finding of high severity at that line iff no line from `max 1 (L - 2)` to `min n (L + 5)` of the `n`
lines mentions authentication; the findings stand in the order of the matches. It makes no
difference whether these lines are searched one by one or put together. -/
theorem unprotectedRoutes_byWindow (path : String) (content : List Char) :
    Mark.mutationRoute.Finds [] content false (routeHits content) ∧
    (routeHits content).Pairwise (fun hit next => hit.stop ≤ next.start) ∧
    (routeHits content ≠ [] → Mark.mutationCall.found content = true) ∧
    unprotectedRoutes path content =
      ((routeHits content).filter (isUnguarded content)).map (routeAt path content) ∧
    (∀ hit ∈ routeHits content, (routeAt path content hit).severity = .high ∧
      (routeAt path content hit).location = .line path (lineOf content hit) ∧
      (isUnguarded content hit = true ↔
        ∀ other, max 1 (lineOf content hit - 2) ≤ other →
          other ≤ min (Text.splitLines content).length (lineOf content hit + 5) →
          mentionsAuthentication ((Located.ofContent content).lineText other) = false)) ∧
    ∀ number,
      mentionsAuthentication (Text.joinLines (routeWindow (.ofContent content) number)) =
        ((Located.ofContent content).near number).any fun other =>
          mentionsAuthentication ((Located.ofContent content).lineText other) := by
  have hfinds := Mark.mutationRoute.findAll_finds content
  refine ⟨hfinds, hfinds.pairwise, fun hne => ?_, unprotectedRoutes_eq path content,
    fun hit _ => ⟨rfl, rfl, ?_⟩, fun _ => Located.mentionedNear_eq⟩
  · apply found_mutationCall
    rw [← Bool.not_eq_false]
    exact mt Pattern.findAll_eq_nil_iff.2 hne
  · have hlines : (Located.ofContent content).lines = Text.splitLines content := rfl
    simp [isUnguarded, Located.mentionedNear, Located.mem_near, hlines]

end WorkspaceAudit
