import WorkspaceAudit.Proofs.Pattern.Hits

/-!
# What can be read off a pattern

Some properties of all matches of a pattern can be computed from the pattern alone.

- `isPlain`: the pattern looks at nothing around its matches.
- `endsWithout q`: no match ends in the character `q`; `needs f`: each has a character with `f`.
- `Skips p front`: no match begins in `front`, whatever follows it.
- `Within p q`: a sign `q` beside a text adds no match to those in the text. So a pattern is found
  in a text between two such signs iff it is found in the text, if it skips what stands before:
  `Within.found_quoted`.
-/

namespace WorkspaceAudit.Pattern

/-- The pattern looks at nothing around its matches. -/
def isPlain : Pattern → Bool
  | .empty | .char _ | .many .. | .repeated .. => true
  | .seq p r | .alt p r => p.isPlain && r.isPlain
  | .optional p | .capture _ p => p.isPlain
  | _ => false

/-- Each match ends in a character other than `q`. -/
def endsWithout (q : Char) : Pattern → Bool
  | .char set => !set.has q
  | .many set least _ _ => 0 < least && !set.has q
  | .seq _ r => r.endsWithout q
  | .alt p r => p.endsWithout q && r.endsWithout q
  | .capture _ p => p.endsWithout q
  | _ => false

/-- Each match has a character with `f`. -/
def needs (f : Char → Bool) : Pattern → Bool
  | .char (.oneOf cs) => cs.all f
  | .seq p r => p.needs f || r.needs f
  | .alt p r => p.needs f && r.needs f
  | .capture _ p => p.needs f
  | _ => false

section Checks

variable {p : Pattern} {pre pre' w post post' rest front v : List Char} {q : Char}

theorem spans_of_isPlain (h : p.isPlain = true) (hspans : p.Spans pre w post) :
    p.Spans pre' w post' := by
  induction p generalizing pre pre' w post post' with
  | empty | char | many | repeated => exact hspans
  | seq p r ihp ihr =>
    obtain ⟨hp, hr⟩ := Bool.and_eq_true_iff.1 h
    obtain ⟨u, t, rfl, hu, ht⟩ := hspans
    exact ⟨u, t, rfl, ihp hp hu, ihr hr ht⟩
  | alt p r ihp ihr =>
    obtain ⟨hp, hr⟩ := Bool.and_eq_true_iff.1 h
    exact hspans.imp (ihp hp) (ihr hr)
  | optional p ih => exact hspans.imp_left (ih h)
  | capture group p ih => exact ih h hspans
  | ahead | notAhead | textStart | textEnd | wordEdge => cases h

theorem exists_last_of_endsWithout (h : p.endsWithout q = true) (hspans : p.Spans pre w post) :
    ∃ u c, w = u ++ [c] ∧ c ≠ q := by
  induction p generalizing pre w post with
  | char set =>
    obtain ⟨c, hc, rfl⟩ := hspans
    refine ⟨[], c, rfl, ?_⟩
    rintro rfl
    simp [endsWithout, hc] at h
  | many set least most lazy =>
    obtain ⟨hall, hleast, -⟩ := hspans
    simp only [endsWithout, Bool.and_eq_true, decide_eq_true_eq, Bool.not_eq_true'] at h
    have hne : w ≠ [] := List.ne_nil_of_length_pos (Nat.lt_of_lt_of_le h.1 hleast)
    refine ⟨w.dropLast, w.getLast hne, (List.dropLast_append_getLast hne).symm, ?_⟩
    rintro hlast
    have hset := hall _ (List.getLast_mem hne)
    rw [hlast, h.2] at hset
    cases hset
  | seq p r ihp ihr =>
    obtain ⟨u, t, rfl, -, ht⟩ := hspans
    obtain ⟨t, c, rfl, hc⟩ := ihr h ht
    exact ⟨u ++ t, c, by simp, hc⟩
  | alt p r ihp ihr =>
    obtain ⟨hp, hr⟩ := Bool.and_eq_true_iff.1 h
    exact hspans.elim (ihp hp) (ihr hr)
  | capture group p ih => exact ih h hspans
  | empty | repeated | optional | ahead | notAhead | textStart | textEnd | wordEdge => cases h

theorem exists_mem_of_needs {f : Char → Bool} (h : p.needs f = true) (hspans : p.Spans pre w post) :
    ∃ c ∈ w, f c = true := by
  induction p generalizing pre w post with
  | char set =>
    obtain ⟨c, hc, rfl⟩ := hspans
    cases set with
    | oneOf cs =>
      exact ⟨c, List.mem_singleton_self c, List.all_eq_true.1 h c (List.contains_iff_mem.1 hc)⟩
    | range | blank | digit | union | compl | anyCase => cases h
  | seq p r ihp ihr =>
    obtain ⟨u, t, rfl, hu, ht⟩ := hspans
    rcases Bool.or_eq_true_iff.1 h with hp | hr
    · obtain ⟨c, hc, hf⟩ := ihp hp hu
      exact ⟨c, List.mem_append_left t hc, hf⟩
    · obtain ⟨c, hc, hf⟩ := ihr hr ht
      exact ⟨c, List.mem_append_right u hc, hf⟩
  | alt p r ihp ihr =>
    obtain ⟨hp, hr⟩ := Bool.and_eq_true_iff.1 h
    exact hspans.elim (ihp hp) (ihr hr)
  | capture group p ih => exact ih h hspans
  | empty | many | repeated | optional | ahead | notAhead => cases h
  | textStart | textEnd | wordEdge => cases h

/-! ## Where matches begin -/

/-- No match begins in `front`, whatever follows it. -/
def Skips (p : Pattern) (front : List Char) : Prop :=
  ∀ rest, p.search (front ++ rest) = p.searchFrom rest front.getLast? front.length false

/-- A pattern is found behind what it skips. -/
theorem Skips.found_iff (h : p.Skips front) : p.found (front ++ rest) = true ↔
    ∃ u w post, rest = u ++ (w ++ post) ∧ p.Spans (front ++ u) w post := by
  have hnone := @searchFrom_eq_none_iff p front rest false
  rw [found, h rest, Option.isSome_iff_ne_none, ne_eq]
  refine (not_congr hnone).trans ?_
  simp only [Bool.false_and, hitAt_eq_none_iff, Bool.false_eq_true, false_and, imp_false,
    Classical.not_forall, Classical.not_not]
  constructor
  · rintro ⟨u, _, rfl, w, post, rfl, hspans⟩
    exact ⟨u, w, post, rfl, hspans⟩
  · rintro ⟨u, w, post, rfl, hspans⟩
    exact ⟨u, w ++ post, rfl, w, post, rfl, hspans⟩

/-- A pattern is not found behind what it skips, if the characters that it needs are missing. -/
theorem Skips.found_eq_false_of_needs {f : Char → Bool} (h : p.Skips front)
    (hneeds : p.needs f = true) (hrest : ∀ c ∈ rest, f c = false) :
    p.found (front ++ rest) = false := by
  rw [Bool.eq_false_iff, ne_eq, h.found_iff]
  rintro ⟨u, w, post, rfl, hspans⟩
  obtain ⟨c, hc, hf⟩ := exists_mem_of_needs hneeds hspans
  rw [hrest c (by simp [hc])] at hf
  cases hf

theorem found_eq_false_of_needs {f : Char → Bool} {text : List Char} (hneeds : p.needs f = true)
    (htext : ∀ c ∈ text, f c = false) : p.found text = false :=
  have hskips : p.Skips [] := fun _ => rfl
  hskips.found_eq_false_of_needs hneeds htext

/-! ## Texts between signs -/

/-- A sign beside a text adds no match of the pattern to those in the text. -/
structure Within (p : Pattern) (q : Char) : Prop where
  ends {pre w post : List Char} (spans : p.Spans pre w post) : ∃ u c, w = u ++ [c] ∧ c ≠ q
  moves {pre pre' w post : List Char} : p.Spans pre w (post ++ [q]) ↔ p.Spans pre' w post

theorem within_of_isPlain (hplain : p.isPlain = true) (hends : p.endsWithout q = true) :
    p.Within q where
  ends := exists_last_of_endsWithout hends
  moves := ⟨spans_of_isPlain hplain, spans_of_isPlain hplain⟩

/-- The edge of a word is one also if a sign that is no word character stands there. -/
theorem within_of_wordEdge {ps : List Pattern} (hplain : (chain ps).isPlain = true)
    (hends : (chain ps).endsWithout q = true) (hq : Text.isWord q = false) :
    (chain (ps ++ [.wordEdge])).Within q where
  ends hspans := by
    obtain ⟨u, t, rfl, hu, rfl, -⟩ := spans_chain_append.1 hspans
    rw [List.append_nil]
    exact exists_last_of_endsWithout hends hu
  moves := by
    intro pre pre' w post
    have hhead : (post ++ [q]).head?.any Text.isWord = post.head?.any Text.isWord := by
      cases post <;> simp [hq]
    -- At the end of a word that is not empty, the edge depends on the last character of it and on
    -- the next one, and a quote is as good as the end there.
    have hedge {w pre pre' : List Char} (hw : ∃ u c, w = u ++ [c] ∧ c ≠ q) :
        (pre ++ w).getLast?.any Text.isWord = (pre' ++ w).getLast?.any Text.isWord := by
      obtain ⟨u, c, rfl, -⟩ := hw
      simp
    simp only [spans_chain_append]
    constructor
    · rintro ⟨u, t, rfl, hu, rfl, hword⟩
      rw [hhead, hedge (exists_last_of_endsWithout hends hu)] at hword
      exact ⟨u, [], rfl, spans_of_isPlain hplain hu, rfl, hword⟩
    · rintro ⟨u, t, rfl, hu, rfl, hword⟩
      rw [← hhead, hedge (exists_last_of_endsWithout hends hu)] at hword
      exact ⟨u, [], rfl, spans_of_isPlain hplain hu, rfl, hword⟩

/-- **A pattern is found in a text between two signs iff it is found in the text**, if no match
begins before it. -/
theorem Within.found_quoted (h : p.Within q) (hskips : p.Skips (front ++ [q])) :
    p.found (front ++ q :: (v ++ [q])) = p.found v := by
  rw [Bool.eq_iff_iff, show front ++ q :: (v ++ [q]) = (front ++ [q]) ++ (v ++ [q]) by simp,
    hskips.found_iff, Pattern.found_iff]
  constructor
  · rintro ⟨u, w, post, htext, hspans⟩
    obtain ⟨w', c, rfl, hc⟩ := h.ends hspans
    rcases List.eq_nil_or_concat post with rfl | ⟨post, d, rfl⟩
    · -- The last character of a match is not the sign.
      have hlast := congrArg List.getLast? htext
      simp at hlast
      exact absurd hlast.symm hc
    · rw [List.concat_eq_append, ← List.append_assoc, ← List.append_assoc] at htext
      obtain ⟨rfl, hd⟩ := List.append_inj' htext rfl
      obtain rfl := List.singleton_inj.1 hd
      rw [List.concat_eq_append] at hspans
      exact ⟨u, w' ++ [c], post, by simp, h.moves.1 hspans⟩
  · rintro ⟨pre, w, post, rfl, hspans⟩
    exact ⟨pre, w, post ++ [q], by simp, h.moves.2 hspans⟩

end Checks

end WorkspaceAudit.Pattern
