import WorkspaceAudit.Ignore.Rules
import WorkspaceAudit.Proofs.Ignore.Meaning

/-!
# What ignore rules leave out

- `Glob.Describes.below`: a glob that describes a folder describes what lies below it.
- `IgnoreRules.ignores_below`: so rules that ignore a folder ignore what lies below it, whichever
  way the slashes of the path lean.
- `IgnoreRules.ignores_of_sublist`: with more rules, no path is ignored less.
- `IgnoreRules.ofLines_sublist`: lines that are put in anywhere take no rule away.
-/

namespace WorkspaceAudit

/-- Text after a slash lies below as well. -/
theorem Glob.Below.append {w t : List Char} (hw : Below w) (ht : '\n' ∉ t) :
    Below (w ++ '/' :: t) := by
  rcases hw with rfl | ⟨u, rfl, hu⟩
  · exact .inr ⟨t, rfl, ht⟩
  · exact .inr ⟨u ++ '/' :: t, rfl, by simp [hu, ht]⟩

theorem Glob.Describes.below {g : Glob} {s t : List Char} (h : g.Describes s) (hs : '\n' ∉ s)
    (ht : '\n' ∉ t) : g.Describes (s ++ '/' :: t) := by
  obtain ⟨front, body, below, last, rfl, hbody, hfront, hbelow, hlast⟩ := h
  -- A line feed at the end would be one of the path itself.
  obtain rfl : last = [] := by
    rcases hlast with rfl | rfl
    · rfl
    · simp at hs
  exact ⟨front, body, below ++ '/' :: t, [], by simp, hbody, hfront, hbelow.append ht, .inl rfl⟩

namespace IgnoreRules

variable {rules more : IgnoreRules} {path : String}

theorem ignores_iff : rules.ignores path = true ↔
    ∃ g ∈ rules, g.Describes (Text.forwardSlashes path) := by
  simp [ignores, Glob.covers_iff_describes]

/-- Slashes that are turned around stay in their line. -/
theorem newline_notMem_forwardSlashes (h : '\n' ∉ path.toList) :
    '\n' ∉ Text.forwardSlashes path := by
  intro hmem
  obtain ⟨c, hc, heq⟩ := List.mem_map.1 hmem
  split at heq
  · exact absurd heq (by decide)
  · exact h (heq ▸ hc)

/-- **Rules that ignore a folder ignore what lies below it.** -/
theorem ignores_below {names : String} (h : rules.ignores path = true) (hpath : '\n' ∉ path.toList)
    (hnames : '\n' ∉ names.toList) : rules.ignores (path ++ "/" ++ names) = true := by
  obtain ⟨g, hg, hdescribes⟩ := ignores_iff.1 h
  have hslashes : Text.forwardSlashes (path ++ "/" ++ names) =
      Text.forwardSlashes path ++ '/' :: Text.forwardSlashes names := by
    simp [Text.forwardSlashes]
  rw [ignores_iff, hslashes]
  exact ⟨g, hg, hdescribes.below (newline_notMem_forwardSlashes hpath)
    (newline_notMem_forwardSlashes hnames)⟩

theorem ignores_of_sublist (hsub : rules.Sublist more) (h : rules.ignores path = true) :
    more.ignores path = true := by
  obtain ⟨g, hg, hdescribes⟩ := ignores_iff.1 h
  exact ignores_iff.2 ⟨g, hsub.subset hg, hdescribes⟩

theorem ofLines_sublist (before added after : List (List Char)) :
    (ofLines (before ++ after)).Sublist (ofLines (before ++ added ++ after)) := by
  refine List.Sublist.filterMap _ ?_
  exact (List.sublist_append_left before added).append (.refl after)

end IgnoreRules

end WorkspaceAudit
