import WorkspaceAudit.Proofs.Pattern.Spans

/-!
# Searching, and all matches of a text

- `found_iff`: a pattern is found in a text iff it spans some part of it.
- `found_lits_iff`, `found_words_iff`: some texts are found iff one of them is part of the text,
  the words in capital or small letters.
- `Hit.Follows hit pre`: the place of a hit, counted from the text in front of it.
- `Finds p pre rest advance hits`: `hits` are the matches in `rest` from left to right, each the
  first one that begins after the end of the one before, and no match is left after the last.
- `findAll_finds`: `findAll` returns all of them. Its bound on their number is never reached.
- `Finds.pairwise`: none of them overlaps another.
-/

namespace WorkspaceAudit.Pattern

/-- The place after `pre`, in front of `rest`. -/
def State.after (pre rest : List Char) : State := ⟨pre.getLast?, rest, pre.length, []⟩

theorem State.after_at (pre rest : List Char) : (State.after pre rest).At pre := ⟨rfl, rfl⟩

/-- The hit stands right after `pre`. -/
structure Hit.Follows (hit : Hit) (pre : List Char) : Prop where
  before : hit.before = pre.getLast?
  start : hit.start = pre.length
  stop : hit.stop = pre.length + hit.text.length

section Places

variable {p : Pattern} {pre rest text : List Char} {advance : Bool} {hit : Hit}

/-! ## The match at a place -/

/-- The match at a place is a text that the pattern spans there. -/
theorem hitAt_eq_some (h : p.hitAt (.after pre rest) advance = some hit) :
    rest = hit.text ++ hit.rest ∧ hit.Follows pre ∧ p.Spans pre hit.text hit.rest ∧
      (advance = true → hit.text ≠ []) := by
  rw [hitAt, run_eq_findSome?] at h
  obtain ⟨t, ht, rfl⟩ := Option.map_eq_some_iff.1 h
  obtain ⟨t', hmem, hsome⟩ := List.exists_of_findSome?_eq_some ht
  obtain ⟨hne, rfl⟩ : ¬(advance && t'.offset == (State.after pre rest).offset) ∧ t' = t := by
    split at hsome
    · cases hsome
    · exact ⟨‹_›, Option.some.inj hsome⟩
  obtain ⟨w, hw⟩ := exists_passes_of_mem_ends hmem
  have hspan := (exists_mem_ends_iff p (State.after_at pre rest) hw.rest).1 ⟨t', hmem, hw⟩
  simp only [hw.textSince]
  refine ⟨hw.rest, ⟨rfl, rfl, hw.offset⟩, hspan, ?_⟩
  rintro rfl rfl
  exact hne (by simpa using hw.offset)

theorem hitAt_eq_none_iff : p.hitAt (.after pre rest) advance = none ↔
    ∀ w post, rest = w ++ post → p.Spans pre w post → advance = true ∧ w = [] := by
  rw [hitAt, run_eq_findSome?, Option.map_eq_none_iff, List.findSome?_eq_none_iff]
  constructor
  · intro h w post hr hspan
    obtain ⟨t, ht, hw⟩ := (exists_mem_ends_iff p (State.after_at pre rest) hr).2 hspan
    have hsome := h t ht
    split at hsome
    · rename_i hadv
      rw [Bool.and_eq_true_iff, beq_iff_eq, hw.offset] at hadv
      exact ⟨hadv.1, List.length_eq_zero_iff.1 (by omega)⟩
    · cases hsome
  · intro h t ht
    obtain ⟨w, hw⟩ := exists_passes_of_mem_ends ht
    obtain ⟨hadv, rfl⟩ := h w t.rest hw.rest
      ((exists_mem_ends_iff p (State.after_at pre rest) hw.rest).1 ⟨t, ht, hw⟩)
    rw [if_pos (by rw [hadv, hw.offset]; simp)]

/-- A pattern matches at the start of a text iff it spans a beginning of it. -/
theorem isSome_matchStart_iff : (p.matchStart text).isSome = true ↔
    ∃ w post, text = w ++ post ∧ p.Spans [] w post := by
  have hnone := @hitAt_eq_none_iff p [] text false
  rw [Option.isSome_iff_ne_none, matchStart, ne_eq]
  refine (not_congr hnone).trans ?_
  simp only [Bool.false_eq_true, false_and, imp_false, Classical.not_forall, Classical.not_not,
    exists_prop]

/-! ## The first match -/

/-- No match begins in a text iff the search finds none. -/
theorem searchFrom_eq_none_iff : p.searchFrom rest pre.getLast? pre.length advance = none ↔
    ∀ u v, rest = u ++ v → p.hitAt (.after (pre ++ u) v) (advance && u.isEmpty) = none := by
  induction rest generalizing pre advance with
  | nil =>
    simp only [searchFrom, List.nil_eq, List.append_eq_nil_iff]
    constructor
    · rintro h u v ⟨rfl, rfl⟩
      simpa [State.after] using h
    · intro h
      simpa [State.after] using h [] [] ⟨rfl, rfl⟩
  | cons c rest ih =>
    -- The search keeps the last character and the length of what is before it only.
    have hnext : p.searchFrom rest (some c) (pre.length + 1) false =
        p.searchFrom rest (pre ++ [c]).getLast? (pre ++ [c]).length false := by simp
    simp only [searchFrom]
    constructor
    · intro h u v huv
      split at h
      · cases h
      · rename_i hhere
        rw [hnext, ih] at h
        cases u with
        | nil => simp only [List.nil_append] at huv; subst huv; simpa [State.after] using hhere
        | cons d u =>
          obtain ⟨rfl, rfl⟩ := List.cons.inj huv
          simpa using h u v rfl
    · intro h
      have hhere := h [] (c :: rest) rfl
      simp only [List.append_nil, List.isEmpty_nil, Bool.and_true, State.after] at hhere
      rw [hhere]
      show p.searchFrom rest (some c) (pre.length + 1) false = none
      rw [hnext, ih]
      intro u v huv
      simpa using h (c :: u) v (by rw [huv]; rfl)

/-- A match that the search finds is one at its place, and none begins before it. -/
theorem searchFrom_eq_some (h : p.searchFrom rest pre.getLast? pre.length advance = some hit) :
    ∃ gap, rest = gap ++ (hit.text ++ hit.rest) ∧
      p.hitAt (.after (pre ++ gap) (hit.text ++ hit.rest)) (advance && gap.isEmpty) = some hit ∧
      ∀ u v, gap = u ++ v → v ≠ [] →
        p.hitAt (.after (pre ++ u) (v ++ (hit.text ++ hit.rest))) (advance && u.isEmpty) =
          none := by
  induction rest generalizing pre advance with
  | nil =>
    have hhere : p.hitAt (.after pre []) advance = some hit := h
    obtain ⟨hr, -⟩ := hitAt_eq_some hhere
    refine ⟨[], hr, by rw [← hr]; simpa using hhere, ?_⟩
    rintro u v huv hv
    exact absurd (List.append_eq_nil_iff.1 huv.symm).2 hv
  | cons c rest ih =>
    simp only [searchFrom] at h
    split at h
    · rename_i first hhere
      obtain rfl := Option.some.inj h
      have hhere : p.hitAt (.after pre (c :: rest)) advance = some first := hhere
      obtain ⟨hr, -⟩ := hitAt_eq_some hhere
      refine ⟨[], hr, by rw [← hr]; simpa using hhere, ?_⟩
      rintro u v huv hv
      exact absurd (List.append_eq_nil_iff.1 huv.symm).2 hv
    · rename_i hnone
      have hnone : p.hitAt (.after pre (c :: rest)) advance = none := hnone
      rw [show some c = (pre ++ [c]).getLast? by simp,
        show pre.length + 1 = (pre ++ [c]).length by simp] at h
      obtain ⟨gap, hr, hhere, hfirst⟩ := ih h
      refine ⟨c :: gap, by rw [hr]; rfl, by simpa using hhere, ?_⟩
      intro u v huv hv
      cases u with
      | nil =>
        simp only [List.nil_append] at huv
        rw [← huv, List.cons_append, ← hr]
        simpa using hnone
      | cons d u =>
        obtain ⟨rfl, rfl⟩ := List.cons.inj huv
        simpa using hfirst u v rfl hv

/-- **A pattern is found in a text iff it spans a part of it.** -/
theorem found_iff : p.found text = true ↔
    ∃ pre w post, text = pre ++ (w ++ post) ∧ p.Spans pre w post := by
  have hnone := @searchFrom_eq_none_iff p [] text false
  rw [found, Option.isSome_iff_ne_none, search, ne_eq]
  refine (not_congr hnone).trans ?_
  simp only [List.nil_append, Bool.false_and, hitAt_eq_none_iff, Bool.false_eq_true, false_and,
    imp_false, Classical.not_forall, Classical.not_not]
  constructor
  · rintro ⟨pre, v, rfl, w, post, rfl, hspan⟩
    exact ⟨pre, w, post, rfl, hspan⟩
  · rintro ⟨pre, w, post, rfl, hspan⟩
    exact ⟨pre, w ++ post, rfl, w, post, rfl, hspan⟩

/-- A pattern that looks at nothing around it is found iff it spans a part of the text. -/
theorem found_iff_part {P : List Char → Prop} (hp : ∀ pre w post, p.Spans pre w post ↔ P w) :
    p.found text = true ↔ ∃ w, w <:+: text ∧ P w := by
  simp only [found_iff, hp]
  constructor
  · rintro ⟨pre, w, post, rfl, hw⟩
    exact ⟨w, ⟨pre, post, by simp⟩, hw⟩
  · rintro ⟨w, ⟨pre, post, rfl⟩, hw⟩
    exact ⟨pre, w, post, by simp, hw⟩

theorem found_lits_iff {texts : List String} :
    (lits texts).found text = true ↔ ∃ s ∈ texts, s.toList <:+: text := by
  have hspans (pre w post : List Char) :
      (lits texts).Spans pre w post ↔ ∃ s ∈ texts, w = s.toList := by
    simp [lits, spans_anyOf_iff, spans_lit_iff]
  rw [found_iff_part hspans]
  constructor
  · rintro ⟨w, hw, s, hs, rfl⟩
    exact ⟨s, hs, hw⟩
  · rintro ⟨s, hs, hw⟩
    exact ⟨s.toList, hw, s, hs, rfl⟩

theorem found_words_iff {texts : List String} : (words texts).found text = true ↔
    ∃ w, w <:+: text ∧ ∃ s ∈ texts, w.map Text.foldLatin = s.toList :=
  found_iff_part fun _ _ _ => by simp [words, spans_anyOf_iff, spans_word_iff]

end Places

/-! ## All matches -/

/-- The matches of a pattern in `rest`, which follows `pre`, from left to right. Each is the first
one that begins at the end of the match before it or later, and no match is left after the last.
An empty match right after `pre` does not count if `advance` is set. -/
inductive Finds (p : Pattern) : List Char → List Char → Bool → List Hit → Prop where
  | done {pre rest : List Char} {advance : Bool}
      (free : ∀ u v, rest = u ++ v →
        p.hitAt (.after (pre ++ u) v) (advance && u.isEmpty) = none) :
      Finds p pre rest advance []
  | next {pre gap : List Char} {advance : Bool} {hit : Hit} {hits : List Hit}
      (here : p.hitAt (.after (pre ++ gap) (hit.text ++ hit.rest)) (advance && gap.isEmpty) =
        some hit)
      (first : ∀ u v, gap = u ++ v → v ≠ [] →
        p.hitAt (.after (pre ++ u) (v ++ (hit.text ++ hit.rest))) (advance && u.isEmpty) = none)
      (more : Finds p (pre ++ gap ++ hit.text) hit.rest hit.text.isEmpty hits) :
      Finds p pre (gap ++ (hit.text ++ hit.rest)) advance (hit :: hits)

/-- After a match, `findFrom` goes on from the place behind it. -/
theorem findFrom_eq_cons {p : Pattern} {fuel : Nat} {front rest : List Char} {before : Option Char}
    {offset : Nat} {advance : Bool} {hit : Hit}
    (h : p.searchFrom rest before offset advance = some hit) (hf : hit.Follows front) :
    p.findFrom (fuel + 1) rest before offset advance =
      hit :: p.findFrom fuel hit.rest (front ++ hit.text).getLast? (front ++ hit.text).length
        hit.text.isEmpty := by
  have hempty : (hit.start == hit.stop) = hit.text.isEmpty := by
    rw [hf.start, hf.stop]; cases hit.text <;> simp
  simp only [findFrom, h, hempty]
  rw [hf.stop, hf.before, List.getLast?_append, List.length_append]
  cases hit.text.getLast? <;> rfl

/-- With enough room, `findFrom` returns all matches. A match that is not empty leaves less text,
and after an empty one the next match is not empty or begins later. -/
theorem findFrom_finds {p : Pattern} {fuel : Nat} {pre rest : List Char} {advance : Bool}
    (hfuel : 2 * rest.length + (if advance then 1 else 2) ≤ fuel) :
    Finds p pre rest advance (p.findFrom fuel rest pre.getLast? pre.length advance) := by
  induction fuel generalizing pre rest advance with
  | zero => split at hfuel <;> omega
  | succ fuel ih =>
    cases hsearch : p.searchFrom rest pre.getLast? pre.length advance with
    | none =>
      rw [findFrom, hsearch]
      exact .done (searchFrom_eq_none_iff.1 hsearch)
    | some hit =>
      obtain ⟨gap, rfl, hhere, hfirst⟩ := searchFrom_eq_some hsearch
      obtain ⟨-, hfollows, -, hadv⟩ := hitAt_eq_some hhere
      rw [findFrom_eq_cons hsearch hfollows]
      refine .next hhere hfirst (ih ?_)
      simp only [List.length_append] at hfuel
      cases htext : hit.text with
      | cons c text => rw [htext] at hfuel; split at hfuel <;> simp at hfuel ⊢ <;> omega
      | nil =>
        rw [htext] at hfuel hadv
        cases advance with
        | false => simp at hfuel ⊢; omega
        | true =>
          -- An empty match that counts begins later.
          cases gap with
          | nil => simp at hadv
          | cons c gap => simp at hfuel ⊢; omega

/-- **`findAll` returns all matches.** -/
theorem findAll_finds (p : Pattern) (text : List Char) : Finds p [] text false (p.findAll text) :=
  findFrom_finds (by simp)

theorem findAll_eq_nil_iff {p : Pattern} {text : List Char} :
    p.findAll text = [] ↔ p.found text = false := by
  unfold findAll found search findFrom
  cases p.searchFrom text none 0 false with
  | none => simp
  | some hit => simp

/-- A match that is found stands where its offsets say, and the pattern spans its text there. -/
theorem Finds.mem {p : Pattern} {pre rest : List Char} {advance : Bool} {hits : List Hit}
    (h : Finds p pre rest advance hits) {hit : Hit} (hmem : hit ∈ hits) :
    ∃ front, pre ++ rest = front ++ (hit.text ++ hit.rest) ∧ hit.Follows front ∧
      p.Spans front hit.text hit.rest := by
  induction h with
  | done free => simp at hmem
  | @next pre gap advance first hits here _ more ih =>
    rcases List.mem_cons.1 hmem with rfl | hmem
    · obtain ⟨-, hfollows, hspan, -⟩ := hitAt_eq_some here
      exact ⟨pre ++ gap, by simp, hfollows, hspan⟩
    · obtain ⟨front, hfront, hit⟩ := ih hmem
      exact ⟨front, by rw [← hfront]; simp, hit⟩

/-- The matches stand behind the place from which they are searched. -/
theorem Finds.length_le {p : Pattern} {pre rest : List Char} {advance : Bool} {hits : List Hit}
    (h : Finds p pre rest advance hits) {hit : Hit} (hmem : hit ∈ hits) :
    pre.length ≤ hit.start := by
  induction h with
  | done free => cases hmem
  | @next pre gap advance first hits here _ more ih =>
    rcases List.mem_cons.1 hmem with rfl | hmem
    · obtain ⟨-, hfollows, -⟩ := hitAt_eq_some here
      rw [hfollows.start, List.length_append]
      omega
    · have hstart := ih hmem
      simp only [List.length_append] at hstart
      omega

/-- **Matches stand from left to right**, and none of them overlaps another. -/
theorem Finds.pairwise {p : Pattern} {pre rest : List Char} {advance : Bool} {hits : List Hit}
    (h : Finds p pre rest advance hits) :
    hits.Pairwise fun hit next => hit.stop ≤ next.start := by
  induction h with
  | done free => exact .nil
  | @next pre gap advance hit hits here _ more ih =>
    refine List.pairwise_cons.2 ⟨fun next hnext => ?_, ih⟩
    obtain ⟨-, hfollows, -⟩ := hitAt_eq_some here
    have hstart := more.length_le hnext
    rw [hfollows.stop]
    simpa only [List.length_append] using hstart

end WorkspaceAudit.Pattern
