import Mathlib.Data.List.Forall2
import WorkspaceAudit.Pattern.Build
import WorkspaceAudit.Proofs.Pattern.Ends

/-!
# The texts that a pattern describes

- `Spans p pre w post`: the text `w`, between `pre` and `post`, is one that `p` describes. It says
  nothing of priorities, captures or backtracking.
- `exists_mem_ends_iff`: from the place after `pre`, a pattern leads over exactly the texts that it
  spans there.
- `spans_chain_append`, `spans_lit_iff`, `spans_anyOf_iff`: the patterns that tables are made of.
-/

namespace WorkspaceAudit.Pattern

/-- The text `w` between `pre` and `post` is one that the pattern describes. -/
def Spans : Pattern → List Char → List Char → List Char → Prop
  | .empty, _, w, _ => w = []
  | .char set, _, w, _ => ∃ c, set.has c ∧ w = [c]
  | .many set least most _, _, w, _ =>
    (∀ c ∈ w, set.has c) ∧ least ≤ w.length ∧ ∀ n ∈ most, w.length ≤ n
  | .repeated _ set copies, _, w, _ =>
    ∃ c n, set.has c ∧ copies ≤ n ∧ w = List.replicate (n + 1) c
  | .seq p q, pre, w, post =>
    ∃ u v, w = u ++ v ∧ p.Spans pre u (v ++ post) ∧ q.Spans (pre ++ u) v post
  | .alt p q, pre, w, post => p.Spans pre w post ∨ q.Spans pre w post
  | .optional p, pre, w, post => p.Spans pre w post ∨ w = []
  | .capture _ p, pre, w, post => p.Spans pre w post
  | .ahead p, pre, w, post => w = [] ∧ ∃ u v, post = u ++ v ∧ p.Spans pre u v
  | .notAhead p, pre, w, post => w = [] ∧ ¬∃ u v, post = u ++ v ∧ p.Spans pre u v
  | .textStart, pre, w, _ => w = [] ∧ pre = []
  | .textEnd, _, w, post => w = [] ∧ (post = [] ∨ post = ['\n'])
  | .wordEdge, pre, w, post =>
    w = [] ∧ pre.getLast?.any Text.isWord ≠ post.head?.any Text.isWord

/-! ## The ends of a pattern are what it spans -/

/-- A pattern has an end at a place if it spans a text there, whichever. -/
theorem exists_mem_ends_iff_of {p : Pattern} {s : State} {pre : List Char}
    (h : ∀ w post, s.rest = w ++ post → ((∃ t ∈ p.ends s, s.Passes w t) ↔ p.Spans pre w post)) :
    (∃ t, t ∈ p.ends s) ↔ ∃ u v, s.rest = u ++ v ∧ p.Spans pre u v := by
  constructor
  · rintro ⟨t, ht⟩
    obtain ⟨w, hw⟩ := exists_passes_of_mem_ends ht
    exact ⟨w, t.rest, hw.rest, (h w t.rest hw.rest).1 ⟨t, ht, hw⟩⟩
  · rintro ⟨u, v, hr, hspan⟩
    obtain ⟨t, ht, -⟩ := (h u v hr).2 hspan
    exact ⟨t, ht⟩

/-- A pattern without text of its own ends where it begins. -/
theorem exists_self_passes_iff {s : State} {w post : List Char} {P : Prop} {Q : List Char → Prop}
    (hr : s.rest = w ++ post) (hPQ : P ↔ Q s.rest) :
    (∃ t, (P ∧ t = s) ∧ s.Passes w t) ↔ w = [] ∧ Q post := by
  constructor
  · rintro ⟨t, ⟨hP, rfl⟩, hp⟩
    obtain rfl := State.passes_self_iff.1 hp
    rw [List.nil_append] at hr
    exact ⟨rfl, hr ▸ hPQ.1 hP⟩
  · rintro ⟨rfl, hQ⟩
    rw [List.nil_append] at hr
    exact ⟨s, ⟨hPQ.2 (hr ▸ hQ), rfl⟩, .refl s⟩

theorem exists_mem_repeated_iff {group copies : Nat} {set : CharSet} {s : State}
    {w post : List Char} (hr : s.rest = w ++ post) :
    (∃ t ∈ (repeated group set copies).ends s, s.Passes w t) ↔
      ∃ c n, set.has c ∧ copies ≤ n ∧ w = List.replicate (n + 1) c := by
  simp only [mem_ends_repeated, mem_runs]
  constructor
  · rintro ⟨t, ⟨c, rest, hc, hset, v, hv, -, hall, hn, -⟩, hp⟩
    refine ⟨c, v.length, hset, hn, ?_⟩
    rw [hp.unique (((State.passes_advance hc).record _ _).trans hv), List.replicate_succ]
    exact congrArg (c :: ·) (List.eq_replicate_iff.2 ⟨rfl, by simpa [CharSet.has] using hall⟩)
  · rintro ⟨c, n, hset, hn, rfl⟩
    rw [List.replicate_succ, List.cons_append] at hr
    have hfirst := (State.passes_advance hr).record group s
    have hrun := State.passes_skip (hfirst.rest_eq hr)
    refine ⟨_, ⟨c, _, hr, hset, _, hrun, rfl, ?_, by simpa using hn, by simp⟩, hfirst.trans hrun⟩
    simp [CharSet.has]

/-- **The ends of a pattern are what it spans.** -/
theorem exists_mem_ends_iff (p : Pattern) {s : State} {pre w post : List Char} (hs : s.At pre)
    (hr : s.rest = w ++ post) : (∃ t ∈ p.ends s, s.Passes w t) ↔ p.Spans pre w post := by
  induction p generalizing s pre w post with
  | empty => simp [Spans, State.passes_self_iff]
  | char set =>
    simp only [mem_ends_char, Spans]
    constructor
    · rintro ⟨t, ⟨c, rest, hc, hset, rfl⟩, hp⟩
      exact ⟨c, hset, hp.unique (State.passes_advance hc)⟩
    · rintro ⟨c, hset, rfl⟩
      exact ⟨_, ⟨c, post, hr, hset, rfl⟩, State.passes_advance hr⟩
  | many set least most lazy =>
    simp only [mem_ends_many, mem_runs, Spans]
    constructor
    · rintro ⟨t, ⟨w', hp', -, hspan⟩, hp⟩
      rwa [hp.unique hp']
    · intro hspan
      exact ⟨_, ⟨w, State.passes_skip hr, rfl, hspan⟩, State.passes_skip hr⟩
  | repeated group set copies => exact exists_mem_repeated_iff hr
  | seq p q ihp ihq =>
    simp only [mem_ends_seq, Spans]
    constructor
    · rintro ⟨t, ⟨m, hm, ht⟩, hp⟩
      obtain ⟨u, hu⟩ := exists_passes_of_mem_ends hm
      obtain ⟨v, hv⟩ := exists_passes_of_mem_ends ht
      -- What is passed by two ends is the same text, so `w` is cut where `p` ends.
      obtain rfl := hp.unique (hu.trans hv)
      rw [List.append_assoc] at hr
      exact ⟨u, v, rfl, (ihp hs hr).1 ⟨m, hm, hu⟩,
        (ihq (hu.at_append hs) (hu.rest_eq hr)).1 ⟨t, ht, hv⟩⟩
    · rintro ⟨u, v, rfl, hp, hq⟩
      rw [List.append_assoc] at hr
      obtain ⟨m, hm, hu⟩ := (ihp hs hr).2 hp
      obtain ⟨t, ht, hv⟩ := (ihq (hu.at_append hs) (hu.rest_eq hr)).2 hq
      exact ⟨t, ⟨m, hm, ht⟩, hu.trans hv⟩
  | alt p q ihp ihq =>
    simp only [mem_ends_alt, Spans, ← ihp hs hr, ← ihq hs hr, or_and_right, exists_or]
  | optional p ih =>
    simp only [mem_ends_optional, Spans, ← ih hs hr, or_and_right, exists_or, exists_eq_left,
      State.passes_self_iff]
  | capture group p ih =>
    simp only [mem_ends_capture, Spans, ← ih hs hr]
    constructor
    · rintro ⟨t, ⟨m, hm, rfl⟩, hp⟩
      exact ⟨m, hm, hp.rest, hp.before, hp.offset⟩
    · rintro ⟨m, hm, hp⟩
      exact ⟨_, ⟨m, hm, rfl⟩, hp.record _ _⟩
  | ahead p ih =>
    -- A look ahead passes nothing itself: what counts is that its pattern ends anywhere at all.
    have hsome := exists_mem_ends_iff_of fun w post h => ih hs h
    simp only [mem_ends_ahead, Spans]
    constructor
    · rintro ⟨t, ⟨m, hm, rfl⟩, hp⟩
      obtain rfl : w = [] := hp.unique ⟨rfl, by simp, by simp⟩
      exact ⟨rfl, by simpa [hr] using hsome.1 ⟨m, List.mem_of_head? hm⟩⟩
    · rintro ⟨rfl, hspan⟩
      obtain ⟨m, hm⟩ := hsome.2 (by simpa [hr] using hspan)
      obtain ⟨first, hfirst⟩ :=
        Option.isSome_iff_exists.1 (List.isSome_head?.2 (List.ne_nil_of_mem hm))
      exact ⟨_, ⟨first, hfirst, rfl⟩, rfl, by simp, by simp⟩
  | notAhead p ih =>
    have hsome := exists_mem_ends_iff_of fun w post h => ih hs h
    simp only [mem_ends_notAhead, Spans]
    refine exists_self_passes_iff (Q := fun post => ¬∃ u v, post = u ++ v ∧ p.Spans pre u v) hr ?_
    rw [← hsome, List.eq_nil_iff_forall_not_mem, not_exists]
  | textStart =>
    simp only [mem_ends_textStart, Spans]
    refine exists_self_passes_iff (Q := fun _ => pre = []) hr ?_
    rw [hs.2, List.length_eq_zero_iff]
  | textEnd =>
    simp only [mem_ends_textEnd, Spans]
    exact exists_self_passes_iff (Q := fun post => post = [] ∨ post = ['\n']) hr
      (by simp [State.atTextEnd])
  | wordEdge =>
    simp only [mem_ends_wordEdge, Spans]
    refine exists_self_passes_iff
      (Q := fun post => pre.getLast?.any Text.isWord ≠ post.head?.any Text.isWord) hr ?_
    rw [State.atWordEdge, hs.1, bne_iff_ne]

/-! ## Rows and choices of patterns -/

section Rows

variable {pre w post : List Char}

@[simp] theorem spans_chain_nil : (chain []).Spans pre w post ↔ w = [] := Iff.rfl

theorem spans_chain_cons {p : Pattern} {more : List Pattern} :
    (chain (p :: more)).Spans pre w post ↔
      ∃ u v, w = u ++ v ∧ p.Spans pre u (v ++ post) ∧ (chain more).Spans (pre ++ u) v post := by
  cases more with
  | nil =>
    constructor
    · intro h
      exact ⟨w, [], by simp, by simpa [chain] using h, rfl⟩
    · rintro ⟨u, v, rfl, hp, hv⟩
      obtain rfl : v = [] := hv
      simpa [chain] using hp
  | cons q more => rfl

/-- Rows of patterns one after the other. -/
theorem spans_chain_append {ps qs : List Pattern} : (chain (ps ++ qs)).Spans pre w post ↔
    ∃ u v, w = u ++ v ∧ (chain ps).Spans pre u (v ++ post) ∧
      (chain qs).Spans (pre ++ u) v post := by
  induction ps generalizing pre w with
  | nil => simp
  | cons p ps ih =>
    simp only [List.cons_append, spans_chain_cons, ih]
    constructor
    · rintro ⟨u, v, rfl, hp, v₁, v₂, rfl, hps, hqs⟩
      exact ⟨u ++ v₁, v₂, by simp, ⟨u, v₁, rfl, by simpa using hp, hps⟩, by simpa using hqs⟩
    · rintro ⟨u, v, rfl, ⟨u₁, u₂, rfl, hp, hps⟩, hqs⟩
      exact ⟨u₁, u₂ ++ v, by simp, by simpa using hp, u₂, v, rfl, hps, by simpa using hqs⟩

/-- A row of single characters spans the texts that have a character of each set in order. -/
theorem spans_chain_chars_iff {sets : List CharSet} : (chain (sets.map char)).Spans pre w post ↔
    List.Forall₂ (fun set c => set.has c = true) sets w := by
  induction sets generalizing pre w with
  | nil => simp
  | cons set sets ih =>
    simp only [List.map_cons, spans_chain_cons, Spans, ih]
    constructor
    · rintro ⟨u, v, rfl, ⟨c, hc, rfl⟩, hsets⟩
      exact .cons hc hsets
    · rintro (_ | ⟨hc, hsets⟩)
      exact ⟨[_], _, rfl, ⟨_, hc, rfl⟩, hsets⟩

theorem spans_lit_iff {s : String} : (lit s).Spans pre w post ↔ w = s.toList := by
  rw [lit, show (fun c => char (.oneOf [c])) = char ∘ fun c => CharSet.oneOf [c] from rfl,
    ← List.map_map, spans_chain_chars_iff, List.forall₂_map_left_iff]
  simp only [CharSet.has, List.contains_iff_mem, List.mem_singleton]
  constructor
  · intro h; exact (List.forall₂_eq_eq_eq ▸ h.imp fun _ _ => Eq.symm).symm
  · rintro rfl; exact List.forall₂_same.2 fun _ _ => rfl

theorem spans_word_iff {s : String} : (word s).Spans pre w post ↔
    w.map Text.foldLatin = s.toList := by
  rw [word, show (fun c => char (.anyCase (.oneOf [c]))) =
      char ∘ fun c => CharSet.anyCase (.oneOf [c]) from rfl, ← List.map_map,
    spans_chain_chars_iff, List.forall₂_map_left_iff, ← List.forall₂_eq_eq_eq,
    List.forall₂_map_left_iff]
  simp only [CharSet.has, List.contains_iff_mem, List.mem_singleton]
  exact ⟨List.Forall₂.flip, List.Forall₂.flip⟩

theorem spans_anyOf_iff {ps : List Pattern} :
    (anyOf ps).Spans pre w post ↔ ∃ p ∈ ps, p.Spans pre w post := by
  induction ps with
  | nil =>
    simp only [anyOf, Spans, List.not_mem_nil, false_and, exists_false, iff_false, not_and,
      Classical.not_not]
    exact fun _ => ⟨[], post, rfl, rfl⟩
  | cons p ps ih =>
    cases ps with
    | nil => simp [anyOf]
    | cons q ps => simpa [anyOf, Spans] using or_congr Iff.rfl ih

end Rows

end WorkspaceAudit.Pattern
