import WorkspaceAudit.Pattern.Search

/-!
# The ways in which a pattern matches

- `ends p s`: the places that `p` leads to from `s`, in order of priority. `Pattern.run` takes the
  first of them after which the rest of the search succeeds (`run_eq_findSome?`), so that nothing
  below has to look at the search itself.
- `State.Passes s w t`: `t` is the place after the text `w` that follows `s`. Every pattern goes
  forward in the text (`exists_passes_of_mem_ends`).
- `mem_runs`: the places after the runs of a set of characters.
-/

namespace WorkspaceAudit.Pattern

/-- The places that a pattern leads to, in order of priority. -/
def ends : Pattern → State → List State
  | .empty, s => [s]
  | .char set, s =>
    match s.rest with
    | c :: rest => if set.has c then [s.advance c rest] else []
    | [] => []
  | .many set least most lazy, s =>
    if lazy then (s.runs set least most).reverse else s.runs set least most
  | .repeated group set copies, s =>
    match s.rest with
    | c :: rest =>
      if set.has c then ((s.advance c rest).record group s).runs (.oneOf [c]) copies none else []
    | [] => []
  | .seq p q, s => (p.ends s).flatMap q.ends
  | .alt p q, s => p.ends s ++ q.ends s
  | .optional p, s => p.ends s ++ [s]
  | .capture group p, s => (p.ends s).map fun t => t.record group s
  | .ahead p, s => ((p.ends s).head?.map fun t => { s with captures := t.captures }).toList
  | .notAhead p, s => if (p.ends s).isEmpty then [s] else []
  | .textStart, s => if s.offset == 0 then [s] else []
  | .textEnd, s => if s.atTextEnd then [s] else []
  | .wordEdge, s => if s.atWordEdge then [s] else []

theorem findSome?_some (places : List State) : places.findSome? some = places.head? := by
  cases places <;> rfl

theorem findSome?_flatMap_ends (q : Pattern) (next : State → Option State)
    (places : List State) : (places.flatMap q.ends).findSome? next =
      places.findSome? fun t => (q.ends t).findSome? next := by
  induction places with
  | nil => rfl
  | cons t more ih =>
    rw [List.flatMap_cons, List.findSome?_append, List.findSome?_cons, ih]
    cases (q.ends t).findSome? next <;> rfl

/-- **Backtracking is a search through the ends.** -/
theorem run_eq_findSome? (p : Pattern) (s : State) (next : State → Option State) :
    p.run s next = (p.ends s).findSome? next := by
  induction p generalizing s next with
  | empty => simp [run, ends]
  | char set =>
    cases h : s.rest with
    | nil => simp [run, ends, h]
    | cons c rest => by_cases hc : set.has c <;> simp [run, ends, h, hc]
  | many set least most lazy => cases lazy <;> simp [run, ends]
  | repeated group set copies =>
    cases h : s.rest with
    | nil => simp [run, ends, h]
    | cons c rest => by_cases hc : set.has c <;> simp [run, ends, h, hc]
  -- To go on with `q` from the first end of `p` that allows it is to try the ends of both in order.
  | seq p q ihp ihq => simp only [run, ends, ihp, ihq, findSome?_flatMap_ends]
  | alt p q ihp ihq =>
    simp only [run, ends, ihp, ihq, List.findSome?_append]
    cases (p.ends s).findSome? next <;> rfl
  | optional p ih =>
    simp only [run, ends, ih, List.findSome?_append]
    cases (p.ends s).findSome? next <;> simp
  | capture group p ih => simp [run, ends, ih, List.findSome?_map, Function.comp_def]
  | ahead p ih =>
    simp only [run, ends, ih, findSome?_some]
    cases (p.ends s).head? <;> simp
  | notAhead p ih =>
    simp only [run, ends, ih, findSome?_some]
    cases p.ends s <;> simp
  | textStart => by_cases h : s.offset = 0 <;> simp [run, ends, h]
  | textEnd => by_cases h : s.atTextEnd <;> simp [run, ends, h]
  | wordEdge => by_cases h : s.atWordEdge <;> simp [run, ends, h]

/-! ## Going forward in a text -/

namespace State

/-- The place stands right after `pre`. -/
def At (s : State) (pre : List Char) : Prop :=
  s.before = pre.getLast? ∧ s.offset = pre.length

/-- `t` is the place after the text `w` that follows `s`. -/
structure Passes (s : State) (w : List Char) (t : State) : Prop where
  rest : s.rest = w ++ t.rest
  before : t.before = w.getLast?.or s.before
  offset : t.offset = s.offset + w.length

namespace Passes

variable {s t r : State} {u v w pre post : List Char}

theorem refl (s : State) : s.Passes [] s := ⟨rfl, by simp, by simp⟩

theorem trans (h₁ : s.Passes u t) (h₂ : t.Passes v r) : s.Passes (u ++ v) r := by
  refine ⟨?_, ?_, ?_⟩
  · rw [h₁.rest, h₂.rest, List.append_assoc]
  · rw [h₂.before, h₁.before, List.getLast?_append, Option.or_assoc]
  · rw [h₂.offset, h₁.offset, List.length_append, Nat.add_assoc]

theorem at_append (h : s.Passes w t) (hs : s.At pre) : t.At (pre ++ w) :=
  ⟨by rw [h.before, hs.1, List.getLast?_append], by rw [h.offset, hs.2, List.length_append]⟩

theorem record (h : s.Passes w t) (group : Nat) (origin : State) :
    s.Passes w (t.record group origin) := ⟨h.rest, h.before, h.offset⟩

theorem unique (hu : s.Passes u t) (hv : s.Passes v t) : u = v :=
  List.append_cancel_right (hu.rest.symm.trans hv.rest)

theorem rest_eq (h : s.Passes w t) (hr : s.rest = w ++ post) : t.rest = post :=
  List.append_cancel_left (h.rest.symm.trans hr)

theorem textSince (h : s.Passes w t) : t.textSince s = w := by
  rw [State.textSince, h.rest, h.offset, Nat.add_sub_cancel_left, List.take_left]

end Passes

theorem passes_self_iff {s : State} {w : List Char} : s.Passes w s ↔ w = [] :=
  ⟨fun h => h.unique (.refl s), fun h => h ▸ .refl s⟩

theorem passes_advance {s : State} {c : Char} {rest : List Char} (h : s.rest = c :: rest) :
    s.Passes [c] (s.advance c rest) := ⟨by simp [h, advance], by simp [advance], by simp [advance]⟩

/-- The place after the text `w` in front of `post`. -/
def skip (s : State) (w post : List Char) : State :=
  { s with before := w.getLast?.or s.before, rest := post, offset := s.offset + w.length }

theorem passes_skip {s : State} {w post : List Char} (h : s.rest = w ++ post) :
    s.Passes w (s.skip w post) := ⟨h, rfl, rfl⟩

end State

/-! ## Runs of characters -/

/-- A text begins with nothing or with its first character. -/
theorem exists_append_cons {c : Char} {rest : List Char} {P : List Char → List Char → Prop} :
    (∃ w post, c :: rest = w ++ post ∧ P w post) ↔
      P [] (c :: rest) ∨ ∃ w post, rest = w ++ post ∧ P (c :: w) post := by
  constructor
  · rintro ⟨w, post, h, hP⟩
    cases w with
    | nil => rw [List.nil_append] at h; subst h; exact .inl hP
    | cons d w =>
      obtain ⟨rfl, rfl⟩ := List.cons.inj h
      exact .inr ⟨w, post, rfl, hP⟩
  · rintro (hP | ⟨w, post, rfl, hP⟩)
    · exact ⟨[], c :: rest, rfl, hP⟩
    · exact ⟨c :: w, post, rfl, hP⟩

theorem getLast?_cons_or (c : Char) (w : List Char) (before : Option Char) :
    (c :: w).getLast?.or before = w.getLast?.or (some c) := by
  rw [List.getLast?_cons]; cases w.getLast? <;> rfl

/-- The places that `runEnds` collects: those it was given, and one for each run that may follow
the `count` characters passed so far. -/
theorem mem_runEnds {set : CharSet} {least : Nat} {most : Option Nat}
    {captures : List (Nat × List Char)} {t : State} (rest : List Char) (before : Option Char)
    (offset count : Nat) (shorter : List State) :
    t ∈ runEnds set least most captures rest before offset count shorter ↔
      t ∈ shorter ∨ ∃ w post, rest = w ++ post ∧ (∀ c ∈ w, set.has c) ∧ least ≤ count + w.length ∧
        (w ≠ [] → ∀ n ∈ most, count + w.length ≤ n) ∧
        t = ⟨w.getLast?.or before, post, offset + w.length, captures⟩ := by
  induction rest generalizing before offset count shorter with
  | nil =>
    have hnil : ∀ w post : List Char, [] = w ++ post ↔ w = [] ∧ post = [] := by simp
    simp only [runEnds, hnil, and_assoc, exists_and_left, exists_eq_left]
    split <;> simp [*, or_comm]
  | cons c rest ih =>
    have hfound : t ∈ (if least ≤ count then ⟨before, c :: rest, offset, captures⟩ :: shorter
        else shorter) ↔
        t ∈ shorter ∨ least ≤ count ∧ t = ⟨before, c :: rest, offset, captures⟩ := by
      split <;> simp [*, or_comm]
    rw [exists_append_cons, runEnds]
    split
    · -- One more character of the set.
      rename_i hc
      obtain ⟨hc, hm⟩ := Bool.and_eq_true_iff.1 hc
      have hm' : ∀ n ∈ most, count + 1 ≤ n := by
        intro n hn
        rw [Option.mem_def.1 hn] at hm
        exact of_decide_eq_true hm
      rw [ih, hfound, or_assoc]
      refine or_congr Iff.rfl (or_congr (by simp) ?_)
      refine exists_congr fun w => exists_congr fun post => and_congr_right fun _ => ?_
      rw [getLast?_cons_or, List.length_cons, List.forall_mem_cons,
        show count + 1 + w.length = count + (w.length + 1) by omega,
        show offset + 1 + w.length = offset + (w.length + 1) by omega]
      by_cases hw : w = []
      · subst hw; simpa [hc] using fun _ _ => hm'
      · simp [hc, hw]
    · -- The run ends here, so that no longer one is left.
      rename_i hc
      rw [hfound, or_iff_left (a := _ ∧ _)]
      · exact or_congr Iff.rfl (by simp)
      · rintro ⟨w, post, -, hw, -, hn, -⟩
        refine hc (Bool.and_eq_true_iff.2 ⟨hw c (by simp), ?_⟩)
        cases most with
        | none => rfl
        | some n => have := hn (by simp) n rfl; simp at this ⊢; omega

/-- The runs of a set from a place: all texts of the set that follow, within the bounds. -/
theorem mem_runs {s t : State} {set : CharSet} {least : Nat} {most : Option Nat} :
    t ∈ s.runs set least most ↔ ∃ w, s.Passes w t ∧ t.captures = s.captures ∧
      (∀ c ∈ w, set.has c) ∧ least ≤ w.length ∧ ∀ n ∈ most, w.length ≤ n := by
  rw [State.runs, mem_runEnds]
  constructor
  · rintro (h | ⟨w, post, hr, hw, hl, hn, rfl⟩)
    · simp at h
    · refine ⟨w, ⟨hr, rfl, rfl⟩, rfl, hw, by simpa using hl, fun n hn' => ?_⟩
      by_cases h0 : w = []
      · simp [h0]
      · simpa using hn h0 n hn'
  · rintro ⟨w, ⟨hr, hb, ho⟩, hcap, hw, hl, hn⟩
    refine .inr ⟨w, t.rest, hr, hw, by simpa using hl, fun _ n hn' => by simpa using hn n hn', ?_⟩
    rw [← hb, ← ho, ← hcap]

/-! ## The ends of each kind of pattern -/

section Members

variable {s t : State} {p q : Pattern} {set : CharSet}

@[simp] theorem mem_ends_empty : t ∈ empty.ends s ↔ t = s := by simp [ends]

@[simp] theorem mem_ends_char : t ∈ (char set).ends s ↔
    ∃ c rest, s.rest = c :: rest ∧ set.has c ∧ t = s.advance c rest := by
  cases h : s.rest with
  | nil => simp [ends, h]
  | cons c rest =>
    by_cases hc : set.has c
    · simp only [ends, h, hc, if_pos, List.mem_singleton, List.cons.injEq, and_assoc,
        exists_and_left, exists_eq_left', true_and]
    · simp only [ends, h, hc, List.cons.injEq, and_assoc, exists_and_left, exists_eq_left']
      simp

@[simp] theorem mem_ends_many {least : Nat} {most : Option Nat} {lazy : Bool} :
    t ∈ (many set least most lazy).ends s ↔ t ∈ s.runs set least most := by
  cases lazy <;> simp [ends]

@[simp] theorem mem_ends_repeated {group copies : Nat} :
    t ∈ (repeated group set copies).ends s ↔ ∃ c rest, s.rest = c :: rest ∧ set.has c ∧
      t ∈ ((s.advance c rest).record group s).runs (.oneOf [c]) copies none := by
  cases h : s.rest with
  | nil => simp [ends, h]
  | cons c rest =>
    by_cases hc : set.has c
    · simp only [ends, h, hc, if_pos, List.cons.injEq, and_assoc, exists_and_left,
        exists_eq_left', true_and]
    · simp only [ends, h, hc, List.cons.injEq, and_assoc, exists_and_left, exists_eq_left']
      simp

@[simp] theorem mem_ends_seq : t ∈ (seq p q).ends s ↔ ∃ m ∈ p.ends s, t ∈ q.ends m := by
  simp [ends]

@[simp] theorem mem_ends_alt : t ∈ (alt p q).ends s ↔ t ∈ p.ends s ∨ t ∈ q.ends s := by
  simp [ends]

@[simp] theorem mem_ends_optional : t ∈ (optional p).ends s ↔ t ∈ p.ends s ∨ t = s := by
  simp [ends]

@[simp] theorem mem_ends_capture {group : Nat} :
    t ∈ (capture group p).ends s ↔ ∃ m ∈ p.ends s, t = m.record group s := by
  simp [ends, eq_comm]

@[simp] theorem mem_ends_ahead : t ∈ (ahead p).ends s ↔
    ∃ m, (p.ends s).head? = some m ∧ t = { s with captures := m.captures } := by
  cases h : (p.ends s).head? <;> simp [ends, h]

@[simp] theorem mem_ends_notAhead : t ∈ (notAhead p).ends s ↔ p.ends s = [] ∧ t = s := by
  simp [ends]

@[simp] theorem mem_ends_textStart : t ∈ textStart.ends s ↔ s.offset = 0 ∧ t = s := by
  simp [ends]

@[simp] theorem mem_ends_textEnd : t ∈ textEnd.ends s ↔ s.atTextEnd ∧ t = s := by
  simp [ends]

@[simp] theorem mem_ends_wordEdge : t ∈ wordEdge.ends s ↔ s.atWordEdge ∧ t = s := by
  simp [ends]

end Members

/-- A pattern goes forward in the text. -/
theorem exists_passes_of_mem_ends {p : Pattern} {s t : State} (h : t ∈ p.ends s) :
    ∃ w, s.Passes w t := by
  induction p generalizing s t with
  | empty => rw [mem_ends_empty.1 h]; exact ⟨[], .refl _⟩
  | char set =>
    obtain ⟨c, rest, hr, -, rfl⟩ := mem_ends_char.1 h
    exact ⟨[c], State.passes_advance hr⟩
  | many set least most lazy =>
    obtain ⟨w, hw, -⟩ := mem_runs.1 (mem_ends_many.1 h)
    exact ⟨w, hw⟩
  | repeated group set copies =>
    obtain ⟨c, rest, hr, -, ht⟩ := mem_ends_repeated.1 h
    obtain ⟨w, hw, -⟩ := mem_runs.1 ht
    exact ⟨_, ((State.passes_advance hr).record _ _).trans hw⟩
  | seq p q ihp ihq =>
    obtain ⟨m, hm, ht⟩ := mem_ends_seq.1 h
    obtain ⟨u, hu⟩ := ihp hm
    obtain ⟨v, hv⟩ := ihq ht
    exact ⟨_, hu.trans hv⟩
  | alt p q ihp ihq => exact (mem_ends_alt.1 h).elim ihp ihq
  | optional p ih =>
    rcases mem_ends_optional.1 h with h | rfl
    · exact ih h
    · exact ⟨[], .refl _⟩
  | capture group p ih =>
    obtain ⟨m, hm, rfl⟩ := mem_ends_capture.1 h
    obtain ⟨w, hw⟩ := ih hm
    exact ⟨w, hw.record _ _⟩
  | ahead p ih =>
    obtain ⟨m, -, rfl⟩ := mem_ends_ahead.1 h
    exact ⟨[], rfl, by simp, by simp⟩
  | notAhead p ih => rw [(mem_ends_notAhead.1 h).2]; exact ⟨[], .refl _⟩
  | textStart => rw [(mem_ends_textStart.1 h).2]; exact ⟨[], .refl _⟩
  | textEnd => rw [(mem_ends_textEnd.1 h).2]; exact ⟨[], .refl _⟩
  | wordEdge => rw [(mem_ends_wordEdge.1 h).2]; exact ⟨[], .refl _⟩

end WorkspaceAudit.Pattern
