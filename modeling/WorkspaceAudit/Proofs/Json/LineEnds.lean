import WorkspaceAudit.Proofs.Json.Readers
import WorkspaceAudit.Proofs.Json.RoundTrip

/-!
# The ends of lines in JSON

The ends of lines are blanks between the parts of a value, and they cannot stand in a text. So it
makes no difference to a reader how they are written.

- `Relined s t`: the texts differ only in the characters at the ends of their lines.
- `Relined.parse_iff`: the same value is read from both.
- `parse_plainNewlines_iff`: so it may be read before or after the ends of lines are made plain.
-/

namespace WorkspaceAudit.Json

open Text.Decimal

/-- The characters that end a line. -/
def isBreak (c : Char) : Bool := c == '\n' || c == '\r'

/-- A character with a property that no end of a line has. -/
theorem plain_of {p : Char → Prop} (hlf : ¬p '\n') (hcr : ¬p '\r') {c : Char} (hc : p c) :
    isBreak c = false := by
  by_contra hbreak
  simp only [isBreak, Bool.not_eq_false, Bool.or_eq_true, beq_iff_eq] at hbreak
  rcases hbreak with rfl | rfl
  · exact hlf hc
  · exact hcr hc

/-- Two texts that differ only in the characters at the ends of their lines. -/
inductive Relined : List Char → List Char → Prop where
  | nil : Relined [] []
  | char {c : Char} {s t : List Char} (plain : isBreak c = false) (rest : Relined s t) :
    Relined (c :: s) (c :: t)
  | breaks {a b : Char} {as bs s t : List Char} (left : ∀ c ∈ a :: as, isBreak c = true)
    (right : ∀ c ∈ b :: bs, isBreak c = true) (rest : Relined s t) :
    Relined (a :: (as ++ s)) (b :: (bs ++ t))

theorem relined_plainNewlines (s : List Char) : Relined s (Text.plainNewlines s) := by
  fun_induction Text.plainNewlines s with
  | case1 => exact .nil
  | case2 rest ih =>
    exact @Relined.breaks '\r' '\n' ['\n'] [] _ _ (by simp [isBreak]) (by simp [isBreak]) ih
  | case3 rest _ ih =>
    exact @Relined.breaks '\r' '\n' [] [] _ _ (by simp [isBreak]) (by simp [isBreak]) ih
  | case4 c rest _ hr ih =>
    by_cases hc : c = '\n'
    · subst hc
      exact @Relined.breaks '\n' '\n' [] [] _ _ (by simp [isBreak]) (by simp [isBreak]) ih
    · exact .char (by simpa [isBreak, hc] using fun h => hr h) ih

namespace Relined

variable {s t : List Char}

theorem symm (h : Relined s t) : Relined t s := by
  induction h with
  | nil => exact .nil
  | char plain _ ih => exact .char plain ih
  | breaks left right _ ih => exact .breaks right left ih

theorem eq_nil (h : Relined [] t) : t = [] := by
  cases h with
  | nil => rfl

/-- A character that ends no line stands in both texts. -/
theorem of_cons {c : Char} (h : Relined (c :: s) t) (hc : isBreak c = false) :
    ∃ u, t = c :: u ∧ Relined s u := by
  cases h with
  | char _ rest => exact ⟨_, rfl, rest⟩
  | breaks left _ _ =>
    rw [left _ List.mem_cons_self] at hc
    cases hc

/-- Two texts without their blanks go on with the same character. -/
theorem skipGap (h : Relined s t) : Relined (skipGap s) (skipGap t) := by
  have hbreak {c : Char} (hc : isBreak c = true) : isGap c = true := by
    simp only [isBreak, Bool.or_eq_true, beq_iff_eq] at hc
    rcases hc with rfl | rfl <;> rfl
  unfold Json.skipGap
  induction h with
  | nil => exact .nil
  | @char c s t plain rest ih =>
    by_cases hc : isGap c = true
    · rwa [List.dropWhile_cons_of_pos hc, List.dropWhile_cons_of_pos hc]
    · rw [List.dropWhile_cons_of_neg hc, List.dropWhile_cons_of_neg hc]
      exact .char plain rest
  | @breaks a b as bs s t left right rest ih =>
    rw [← List.cons_append, ← List.cons_append,
      List.dropWhile_append_of_pos fun c hc => hbreak (left c hc),
      List.dropWhile_append_of_pos fun c hc => hbreak (right c hc)]
    exact ih

end Relined

/-! ## The leaves -/

section Leaves

variable {s t rest : List Char}

theorem Relined.dropWord? {word : List Char} (hword : ∀ c ∈ word, isBreak c = false)
    (h : Relined s t) (hdrop : Json.dropWord? word s = some rest) :
    ∃ last, Json.dropWord? word t = some last ∧ Relined rest last := by
  induction word generalizing s t with
  | nil =>
    obtain rfl := Option.some.inj hdrop
    exact ⟨t, rfl, h⟩
  | cons w word ih =>
    obtain ⟨hw, hword⟩ := List.forall_mem_cons.1 hword
    have hs := eq_append_of_dropWord? hdrop
    subst hs
    obtain ⟨u, rfl, hu⟩ := h.of_cons hw
    simp only [Json.dropWord?, List.cons_append, beq_self_eq_true, if_true] at hdrop ⊢
    exact ih hword hu hdrop

theorem hexUnit?_of_relined {unit : Nat} (h : Relined s t)
    (hunit : hexUnit? s = some (unit, rest)) :
    ∃ last, hexUnit? t = some (unit, last) ∧ Relined rest last := by
  have hplain {c : Char} {n : Nat} (hc : hexValue? c = some n) : isBreak c = false :=
    plain_of (p := fun c => hexValue? c = some n) (fun h => by cases h) (fun h => by cases h) hc
  unfold hexUnit? at hunit
  split at hunit
  · simp only [Option.pure_def, Option.bind_eq_bind, Option.bind_eq_some_iff, Option.some.injEq,
      Prod.mk.injEq] at hunit
    obtain ⟨a, ha, b, hb, c, hc, d, hd, hvalue, rfl⟩ := hunit
    obtain ⟨_, rfl, h₁⟩ := h.of_cons (hplain ha)
    obtain ⟨_, rfl, h₂⟩ := h₁.of_cons (hplain hb)
    obtain ⟨_, rfl, h₃⟩ := h₂.of_cons (hplain hc)
    obtain ⟨last, rfl, h₄⟩ := h₃.of_cons (hplain hd)
    exact ⟨last, by simp [hexUnit?, ha, hb, hc, hd, hvalue], h₄⟩
  · cases hunit

theorem unitPoint?_of_relined {unit : Nat} {p : Point} (h : Relined s t)
    (hpoint : unitPoint? unit s = some (p, rest)) :
    ∃ last, unitPoint? unit t = some (p, last) ∧ Relined rest last := by
  unfold unitPoint? at hpoint ⊢
  by_cases hhigh : (0xd800 ≤ unit && unit < 0xdc00) = true
  · rw [if_pos hhigh] at hpoint ⊢
    split at hpoint
    · obtain ⟨_, rfl, hu⟩ := h.of_cons rfl
      obtain ⟨u, rfl, hmore⟩ := hu.of_cons rfl
      obtain ⟨⟨low, more⟩, hlow, hpair⟩ := Option.bind_eq_some_iff.1 hpoint
      obtain ⟨last, hlast, hrest⟩ := hexUnit?_of_relined hmore hlow
      simp only [hlast, Option.pure_def, Option.bind_eq_bind, Option.bind_some] at hpair ⊢
      split at hpair
      · rename_i hlow
        obtain ⟨rfl, rfl⟩ := Prod.mk.inj (Option.some.inj hpair)
        exact ⟨last, by rw [if_pos hlow], hrest⟩
      · rename_i hlow
        obtain ⟨rfl, rfl⟩ := Prod.mk.inj (Option.some.inj hpair)
        exact ⟨_, by rw [if_neg hlow], h⟩
    · rename_i hno
      obtain ⟨rfl, rfl⟩ := Prod.mk.inj (Option.some.inj hpoint)
      split
      · obtain ⟨_, rfl, hu⟩ := h.symm.of_cons rfl
        obtain ⟨u, rfl, -⟩ := hu.of_cons rfl
        exact absurd rfl (hno u)
      · exact ⟨t, rfl, h⟩
  · rw [if_neg hhigh] at hpoint ⊢
    obtain ⟨rfl, rfl⟩ := Prod.mk.inj (Option.some.inj hpoint)
    exact ⟨t, rfl, h⟩

theorem escape?_of_relined {p : Point} (h : Relined s t) (hescape : escape? s = some (p, rest)) :
    ∃ last, escape? t = some (p, last) ∧ Relined rest last := by
  unfold escape? at hescape
  split at hescape
  · obtain ⟨⟨unit, more⟩, hunit, hpoint⟩ := Option.bind_eq_some_iff.1 hescape
    obtain ⟨u, rfl, hu⟩ := h.of_cons rfl
    obtain ⟨middle, hmiddle, hmore⟩ := hexUnit?_of_relined hu hunit
    obtain ⟨last, hlast, hrest⟩ := unitPoint?_of_relined hmore hpoint
    exact ⟨last, by simp [escape?, hmiddle, hlast], hrest⟩
  · rename_i c more hno
    obtain ⟨e, he, hpair⟩ := Option.map_eq_some_iff.1 hescape
    obtain ⟨rfl, rfl⟩ := Prod.mk.inj hpair
    have hplain : isBreak c = false :=
      plain_of (p := fun c => simpleEscape? c = some e) (fun h => by cases h)
        (fun h => by cases h) he
    obtain ⟨u, rfl, hu⟩ := h.of_cons hplain
    refine ⟨u, ?_, hu⟩
    unfold escape?
    split
    · rename_i heq
      obtain ⟨rfl, rfl⟩ := List.cons.inj heq
      cases he
    · rename_i heq
      obtain ⟨rfl, rfl⟩ := List.cons.inj heq
      rw [he, Option.map_some]
    · rename_i heq
      cases heq
  · cases hescape

/-- A text is read in the same way, if there is fuel for all of its characters. -/
theorem textBody?_of_relined {fuel enough : Nat} {ps : List Point} (h : Relined s t)
    (henough : t.length < enough) (hbody : textBody? fuel s = some (ps, rest)) :
    ∃ last, textBody? enough t = some (ps, last) ∧ Relined rest last := by
  fun_induction textBody? fuel s generalizing t enough ps with
  | case1 => cases hbody
  | case2 => cases hbody
  -- The closing quote, an escape, and any other character. A line break is none of these: a control
  -- character ends the text with a failure.
  | case3 fuel c s hquote =>
    obtain rfl := eq_of_beq hquote
    obtain ⟨rfl, rfl⟩ := Prod.mk.inj (Option.some.inj hbody)
    obtain ⟨u, rfl, hu⟩ := h.of_cons rfl
    obtain ⟨more, rfl⟩ := Nat.exists_eq_add_of_lt henough
    exact ⟨u, rfl, hu⟩
  | case4 fuel c s hquote hescape ih =>
    obtain rfl := eq_of_beq hescape
    obtain ⟨⟨p, more⟩, hpoint, hbody⟩ := Option.bind_eq_some_iff.1 hbody
    obtain ⟨⟨others, after⟩, hothers, hbody⟩ := Option.bind_eq_some_iff.1 hbody
    obtain ⟨rfl, rfl⟩ := Prod.mk.inj (Option.some.inj hbody)
    obtain ⟨u, rfl, hu⟩ := h.of_cons rfl
    obtain ⟨middle, hmiddle, hmore⟩ := escape?_of_relined hu hpoint
    have hshort := (suffix_of_escape? hmiddle).length_le
    cases enough with
    | zero => cases henough
    | succ enough =>
      have hlength : middle.length < enough :=
        Nat.lt_of_le_of_lt hshort (Nat.lt_of_succ_lt_succ henough)
      obtain ⟨last, hlast, hrest⟩ := ih more hmore hlength hothers
      exact ⟨last, by simp [textBody?, hmiddle, hlast], hrest⟩
  | case5 => cases hbody
  | case6 fuel c s hquote hescape hcontrol ih =>
    obtain ⟨⟨others, after⟩, hothers, hbody⟩ := Option.bind_eq_some_iff.1 hbody
    obtain ⟨rfl, rfl⟩ := Prod.mk.inj (Option.some.inj hbody)
    have hplain : isBreak c = false :=
      plain_of (p := fun c => ¬c.toNat < 32) (by decide) (by decide) hcontrol
    obtain ⟨u, rfl, hu⟩ := h.of_cons hplain
    cases enough with
    | zero => cases henough
    | succ enough =>
      obtain ⟨last, hlast, hrest⟩ := ih hu (Nat.lt_of_succ_lt_succ henough) hothers
      refine ⟨last, ?_, hrest⟩
      rw [textBody?, if_neg hquote, if_neg hescape, if_neg hcontrol, hlast]
      rfl

variable {τ : Type} {d : Dialect τ}

theorem text?_of_relined {x : τ} (h : Relined s t) (htext : d.text? s = some (x, rest)) :
    ∃ last, d.text? t = some (x, last) ∧ Relined rest last := by
  obtain ⟨⟨points, more⟩, hpoints, haccept⟩ := Option.bind_eq_some_iff.1 htext
  obtain ⟨accepted, hx, hpair⟩ := Option.bind_eq_some_iff.1 haccept
  obtain ⟨rfl, rfl⟩ := Prod.mk.inj (Option.some.inj hpair)
  obtain ⟨⟨ps, after⟩, hbody, hpair⟩ := Option.map_eq_some_iff.1 hpoints
  obtain ⟨rfl, rfl⟩ := Prod.mk.inj hpair
  obtain ⟨last, hlast, hrest⟩ := textBody?_of_relined h (Nat.lt_succ_self _) hbody
  exact ⟨last, by simp [Dialect.text?, text?, hlast, hx], hrest⟩

/-- The digits at the start of the texts are the same. -/
theorem Relined.digits (h : Relined s t) :
    s.takeWhile isDigit = t.takeWhile isDigit ∧
      Relined (s.dropWhile isDigit) (t.dropWhile isDigit) := by
  have hbreak {c : Char} (hc : isBreak c = true) : ¬isDigit c = true := by
    intro hdigit
    rw [plain_of (p := fun c => isDigit c = true) (by decide) (by decide) hdigit] at hc
    cases hc
  induction h with
  | nil => exact ⟨rfl, .nil⟩
  | @char c s t plain rest ih =>
    by_cases hc : isDigit c = true
    · rw [List.takeWhile_cons_of_pos hc, List.takeWhile_cons_of_pos hc,
        List.dropWhile_cons_of_pos hc, List.dropWhile_cons_of_pos hc, ih.1]
      exact ⟨rfl, ih.2⟩
    · rw [List.takeWhile_cons_of_neg hc, List.takeWhile_cons_of_neg hc,
        List.dropWhile_cons_of_neg hc, List.dropWhile_cons_of_neg hc]
      exact ⟨rfl, .char plain rest⟩
  | breaks left right rest _ =>
    have ha := hbreak (left _ List.mem_cons_self)
    have hb := hbreak (right _ List.mem_cons_self)
    rw [List.takeWhile_cons_of_neg ha, List.takeWhile_cons_of_neg hb,
      List.dropWhile_cons_of_neg ha, List.dropWhile_cons_of_neg hb]
    exact ⟨rfl, .breaks left right rest⟩

theorem wholePart?_of_relined {whole : List Char} (h : Relined s t)
    (hwhole : wholePart? s = some (whole, rest)) :
    ∃ last, wholePart? t = some (whole, last) ∧ Relined rest last := by
  unfold wholePart? at hwhole
  split at hwhole
  · obtain ⟨rfl, rfl⟩ := Prod.mk.inj (Option.some.inj hwhole)
    obtain ⟨u, rfl, hu⟩ := h.of_cons rfl
    exact ⟨u, rfl, hu⟩
  · rename_i hzero
    rw [List.span_eq_takeWhile_dropWhile] at hwhole
    split at hwhole
    · cases hwhole
    · rename_i hne hspan
      obtain ⟨rfl, rfl⟩ := Prod.mk.inj (Option.some.inj hwhole)
      obtain ⟨htake, hdrop⟩ := Prod.mk.inj hspan
      refine ⟨t.dropWhile isDigit, ?_, hdrop ▸ h.digits.2⟩
      unfold wholePart?
      split
      · obtain ⟨u, rfl, -⟩ := h.symm.of_cons rfl
        exact absurd rfl (hzero u)
      · rw [List.span_eq_takeWhile_dropWhile, ← h.digits.1, htake]
        split
        · rename_i heq
          exact absurd (Prod.mk.inj heq).1 fun hnil => hne hnil
        · rename_i heq
          obtain ⟨rfl, rfl⟩ := Prod.mk.inj heq
          rfl

/-- The characters that end no line begin both texts or none. -/
theorem Relined.head?_iff {c : Char} (hc : isBreak c = false) (h : Relined s t) :
    s.head? = some c ↔ t.head? = some c := by
  cases h with
  | nil => rfl
  | char => rfl
  | breaks left right _ =>
    have hne {a : Char} (ha : isBreak a = true) : a ≠ c := by
      rintro rfl
      rw [ha] at hc
      cases hc
    simp [hne (left _ List.mem_cons_self), hne (right _ List.mem_cons_self)]

theorem fraction_point (s : List Char) :
    fraction ('.' :: s) = if (s.takeWhile isDigit).isEmpty then (none, '.' :: s)
      else (some (s.takeWhile isDigit), s.dropWhile isDigit) := by
  rw [fraction, List.span_eq_takeWhile_dropWhile]
  cases s.takeWhile isDigit with
  | nil => rfl
  | cons => rfl

theorem fraction_of_head? (h : ¬s.head? = some '.') : fraction s = (none, s) := by
  unfold fraction
  split
  · exact absurd rfl h
  · rfl

theorem Relined.fraction (h : Relined s t) :
    (Json.fraction s).1 = (Json.fraction t).1 ∧
      Relined (Json.fraction s).2 (Json.fraction t).2 := by
  by_cases hpoint : s.head? = some '.'
  · obtain ⟨more, rfl⟩ := List.head?_eq_some_iff.1 hpoint
    obtain ⟨u, rfl, hu⟩ := h.of_cons rfl
    rw [fraction_point, fraction_point, ← hu.digits.1]
    split
    · exact ⟨rfl, h⟩
    · exact ⟨rfl, hu.digits.2⟩
  · rw [fraction_of_head? hpoint, fraction_of_head? fun ht => hpoint ((h.head?_iff rfl).2 ht)]
    exact ⟨rfl, h⟩

theorem exponentDigits_eq (negative : Bool) (s : List Char) :
    exponentDigits negative s = if (s.takeWhile isDigit).isEmpty then none
      else some (if negative then -(Text.Decimal.value (s.takeWhile isDigit) : Int)
        else (Text.Decimal.value (s.takeWhile isDigit) : Int), s.dropWhile isDigit) := by
  unfold exponentDigits
  rw [List.span_eq_takeWhile_dropWhile]
  cases s.takeWhile isDigit with
  | nil => rfl
  | cons => rfl

theorem exponent_of_head? (he : s.head? ≠ some 'e') (hE : s.head? ≠ some 'E') :
    exponent s = (none, s) := by
  have hletter {c : Char} {more : List Char} (hs : s = c :: more) :
      ¬(c == 'e' || c == 'E') = true := by
    subst hs
    simp only [List.head?_cons, ne_eq, Option.some.injEq] at he hE
    simp [he, hE]
  unfold exponent
  split
  · rw [if_neg (hletter rfl)]
  · rw [if_neg (hletter rfl)]
  · rw [if_neg (hletter rfl)]
  · rfl

theorem exponent_letter {c : Char} (hc : (c == 'e' || c == 'E') = true)
    (hplus : s.head? ≠ some '+') (hminus : s.head? ≠ some '-') :
    exponent (c :: s) = exponentAfter false (c :: s) s := by
  unfold exponent
  split
  · rename_i heq
    obtain ⟨rfl, rfl⟩ := List.cons.inj heq
    exact absurd rfl hplus
  · rename_i heq
    obtain ⟨rfl, rfl⟩ := List.cons.inj heq
    exact absurd rfl hminus
  · rename_i heq
    obtain ⟨rfl, rfl⟩ := List.cons.inj heq
    rw [if_pos hc]
    rfl
  · rename_i heq
    cases heq

theorem exponent_plus {c : Char} (hc : (c == 'e' || c == 'E') = true) :
    exponent (c :: '+' :: s) = exponentAfter false (c :: '+' :: s) s := by
  rw [exponent, if_pos hc]
  rfl

theorem exponent_minus {c : Char} (hc : (c == 'e' || c == 'E') = true) :
    exponent (c :: '-' :: s) = exponentAfter true (c :: '-' :: s) s := by
  rw [exponent, if_pos hc]
  rfl

theorem Relined.exponentAfter {whole whole' : List Char} (negative : Bool) (h : Relined s t)
    (hwhole : Relined whole whole') :
    (Json.exponentAfter negative whole s).1 = (Json.exponentAfter negative whole' t).1 ∧
      Relined (Json.exponentAfter negative whole s).2
        (Json.exponentAfter negative whole' t).2 := by
  unfold Json.exponentAfter
  rw [exponentDigits_eq, exponentDigits_eq, ← h.digits.1]
  by_cases hempty : (s.takeWhile isDigit).isEmpty = true
  · simp only [if_pos hempty]
    exact ⟨trivial, hwhole⟩
  · simp only [if_neg hempty]
    exact ⟨trivial, h.digits.2⟩

theorem Relined.exponent (h : Relined s t) :
    (Json.exponent s).1 = (Json.exponent t).1 ∧
      Relined (Json.exponent s).2 (Json.exponent t).2 := by
  by_cases hletter : s.head? = some 'e' ∨ s.head? = some 'E'
  · obtain ⟨c, hc, more, rfl⟩ : ∃ c, (c == 'e' || c == 'E') = true ∧ ∃ more, s = c :: more := by
      rcases hletter with he | hE
      · exact ⟨'e', rfl, List.head?_eq_some_iff.1 he⟩
      · exact ⟨'E', rfl, List.head?_eq_some_iff.1 hE⟩
    have hplain : isBreak c = false :=
      plain_of (p := fun c => (c == 'e' || c == 'E') = true) (by decide) (by decide) hc
    obtain ⟨u, rfl, hu⟩ := h.of_cons hplain
    by_cases hplus : more.head? = some '+'
    · obtain ⟨digits, rfl⟩ := List.head?_eq_some_iff.1 hplus
      obtain ⟨v, rfl, hv⟩ := hu.of_cons rfl
      rw [exponent_plus hc, exponent_plus hc]
      exact hv.exponentAfter false h
    by_cases hminus : more.head? = some '-'
    · obtain ⟨digits, rfl⟩ := List.head?_eq_some_iff.1 hminus
      obtain ⟨v, rfl, hv⟩ := hu.of_cons rfl
      rw [exponent_minus hc, exponent_minus hc]
      exact hv.exponentAfter true h
    rw [exponent_letter hc hplus hminus, exponent_letter hc
      (fun hp => hplus ((hu.head?_iff rfl).2 hp)) (fun hm => hminus ((hu.head?_iff rfl).2 hm))]
    exact hu.exponentAfter false h
  · obtain ⟨he, hE⟩ := not_or.1 hletter
    rw [exponent_of_head? he hE, exponent_of_head? (fun ht => he ((h.head?_iff rfl).2 ht))
      (fun ht => hE ((h.head?_iff rfl).2 ht))]
    exact ⟨rfl, h⟩

theorem unsigned_of_relined {negative : Bool} {v : Json τ} (h : Relined s t)
    (hread : unsigned d negative s = .ok (v, rest)) :
    ∃ last, unsigned d negative t = .ok (v, last) ∧ Relined rest last := by
  unfold unsigned at hread
  split at hread
  · cases hread
  · rename_i whole more hwhole
    obtain ⟨more', hwhole', hmore⟩ := wholePart?_of_relined h hwhole
    have hfraction := hmore.fraction
    have hexponent := hfraction.2.exponent
    simp only at hread
    split at hread
    · cases hread
    · rename_i hshort
      rw [hfraction.1, hexponent.1] at hread hshort
      split at hread
      · rename_i hfractional
        obtain ⟨rfl, rfl⟩ := Prod.mk.inj (Except.ok.inj hread)
        refine ⟨_, ?_, hexponent.2⟩
        simp only [unsigned, hwhole']
        rw [if_neg hshort, if_pos hfractional]
      · rename_i hfractional
        obtain ⟨rfl, rfl⟩ := Prod.mk.inj (Except.ok.inj hread)
        refine ⟨_, ?_, hexponent.2⟩
        simp only [unsigned, hwhole']
        rw [if_neg hshort, if_neg hfractional]

theorem number_of_relined {v : Json τ} (h : Relined s t) (hread : number d s = .ok (v, rest)) :
    ∃ last, number d t = .ok (v, last) ∧ Relined rest last := by
  have hinfinity : ∀ c ∈ "Infinity".toList, isBreak c = false := by simp [isBreak]
  unfold number at hread
  split at hread
  · obtain ⟨u, rfl, hu⟩ := h.of_cons rfl
    simp only [number]
    split at hread
    · rename_i hdrop
      obtain ⟨rfl, rfl⟩ := Prod.mk.inj (Except.ok.inj hread)
      obtain ⟨last, hlast, hrest⟩ := hu.dropWord? hinfinity hdrop
      exact ⟨last, by rw [hlast], hrest⟩
    · rename_i hdrop
      obtain ⟨last, hlast, hrest⟩ := unsigned_of_relined hu hread
      cases hword : dropWord? "Infinity".toList u with
      | none => exact ⟨last, hlast, hrest⟩
      | some w =>
        obtain ⟨_, hs, -⟩ := hu.symm.dropWord? hinfinity hword
        rw [hs] at hdrop
        cases hdrop
  · rename_i hminus
    obtain ⟨last, hlast, hrest⟩ := unsigned_of_relined h hread
    refine ⟨last, ?_, hrest⟩
    unfold number
    split
    · obtain ⟨u, rfl, -⟩ := h.symm.of_cons rfl
      exact absurd rfl (hminus u)
    · exact hlast

theorem isBreak_of_mem_words {word : List Char} {v : Json τ} (h : (word, v) ∈ words (τ := τ)) :
    ∀ c ∈ word, isBreak c = false := by
  simp only [words, List.mem_cons, Prod.mk.injEq, List.not_mem_nil, or_false] at h
  rcases h with ⟨rfl, -⟩ | ⟨rfl, -⟩ | ⟨rfl, -⟩ | ⟨rfl, -⟩ | ⟨rfl, -⟩ <;> simp [isBreak]

theorem word?_of_relined {v : Json τ} (h : Relined s t) (hword : word? s = some (v, rest)) :
    ∃ last, word? t = some (v, last) ∧ Relined rest last := by
  have hwords : ∀ entry ∈ words (τ := τ), ∀ c ∈ entry.1, isBreak c = false :=
    fun entry hentry => isBreak_of_mem_words hentry
  unfold word? at hword ⊢
  -- the words in front of the one that is found begin neither text
  generalize words (τ := τ) = table at hword hwords
  induction table with
  | nil => cases hword
  | cons entry table ih =>
    obtain ⟨hentry, htable⟩ := List.forall_mem_cons.1 hwords
    rw [List.findSome?_cons] at hword ⊢
    cases hdrop : dropWord? entry.1 s with
    | some more =>
      obtain ⟨last, hlast, hmore⟩ := h.dropWord? hentry hdrop
      simp only [hdrop, Option.map_some, Option.some.injEq, Prod.mk.injEq] at hword
      obtain ⟨rfl, rfl⟩ := hword
      exact ⟨last, by simp [hlast], hmore⟩
    | none =>
      simp only [hdrop, Option.map_none] at hword
      cases hother : dropWord? entry.1 t with
      | none =>
        simp only [hother, Option.map_none]
        exact ih hword htable
      | some more =>
        obtain ⟨_, hs, -⟩ := h.symm.dropWord? hentry hother
        rw [hs] at hdrop
        cases hdrop

theorem word?_eq_none_of_relined (h : Relined s t) (hword : word? (τ := τ) s = none) :
    word? (τ := τ) t = none := by
  cases hother : word? (τ := τ) t with
  | none => rfl
  | some result =>
    obtain ⟨_, hs, -⟩ := word?_of_relined h.symm hother
    rw [hs] at hword
    cases hword

end Leaves

/-! ## Values -/

variable {τ : Type} [BEq τ] {d : Dialect τ} {fuel : Nat}

/-- What the readers find with some fuel in a text, they find in one with other ends of lines, if
there is enough fuel for it. -/
structure Relines (d : Dialect τ) (fuel : Nat) : Prop where
  value : ∀ {enough depth s t v rest}, Relined s t → 2 * t.length + 1 ≤ enough →
    value d fuel depth s = .ok (v, rest) →
    ∃ last, value d enough depth t = .ok (v, last) ∧ Relined rest last
  items : ∀ {enough depth s t vs rest}, Relined s t → 2 * t.length + 2 ≤ enough →
    items d fuel depth s = .ok (vs, rest) →
    ∃ last, items d enough depth t = .ok (vs, last) ∧ Relined rest last
  members : ∀ {enough depth before s t ms rest}, Relined s t → 2 * t.length + 2 ≤ enough →
    members d fuel depth before s = .ok (ms, rest) →
    ∃ last, members d enough depth before t = .ok (ms, last) ∧ Relined rest last

namespace Relines

variable {s t rest : List Char} {depth enough : Nat}

theorem length_skipGap (s : List Char) : (skipGap s).length ≤ s.length :=
  (suffix_skipGap s).length_le

theorem length_lt_of_skipGap {c : Char} {u : List Char} (h : skipGap s = c :: u) :
    u.length < s.length := by
  have hshort := length_skipGap s
  rwa [h, List.length_cons] at hshort

/-- The fuel that is enough for an array or object is enough for its inside. -/
theorem enough_inside {c : Char} (h : 2 * (c :: s).length + 1 ≤ enough + 1) :
    2 * (skipGap s).length + 2 ≤ enough := by
  have hshort := length_skipGap s
  rw [List.length_cons] at h
  omega

/-- The fuel that is enough for some items is enough for those after the first comma. -/
theorem enough_after {c : Char} {u w : List Char} (h : 2 * t.length + 2 ≤ enough + 1)
    (hshort : u.length ≤ t.length) (hgap : skipGap u = c :: w) :
    2 * (skipGap w).length + 2 ≤ enough := by
  have hw := length_lt_of_skipGap hgap
  have hlast := length_skipGap w
  omega

/-- An array or object that is empty in one text is empty in the other. -/
theorem skipGap_cons {c : Char} {more : List Char} (h : Relined s t) (hc : isBreak c = false)
    (hgap : skipGap s = c :: more) : ∃ u, skipGap t = c :: u ∧ Relined more u :=
  (hgap ▸ h.skipGap).of_cons hc

/-- An array or object that is filled in one text is filled in the other. -/
theorem skipGap_ne {c : Char} (h : Relined s t) (hc : isBreak c = false)
    (hgap : ∀ rest, skipGap s ≠ c :: rest) (rest : List Char) : skipGap t ≠ c :: rest := by
  intro hclose
  obtain ⟨u, hu, -⟩ := skipGap_cons h.symm hc hclose
  exact hgap u hu

theorem beginsPlain (h : Relined s t) (hplain : BeginsPlain s) : BeginsPlain t := by
  have hne {c : Char} (hc : isBreak c = false) (hs : ∀ more, s ≠ c :: more) (more : List Char) :
      t ≠ c :: more := by
    rintro rfl
    obtain ⟨u, hu, -⟩ := h.symm.of_cons hc
    exact hs u hu
  exact fun more => ⟨hne rfl (fun u => (hplain u).1) more, hne rfl (fun u => (hplain u).2.1) more,
    hne rfl (fun u => (hplain u).2.2) more⟩

theorem value_succ (ih : Relines d fuel) {v : Json τ} (h : Relined s t)
    (henough : 2 * t.length + 1 ≤ enough + 1) (hread : ValueStep d fuel depth s (.ok (v, rest))) :
    ∃ last, ValueStep d enough depth t (.ok (v, last)) ∧ Relined rest last := by
  cases hread with
  | text text =>
    obtain ⟨u, rfl, hu⟩ := h.of_cons rfl
    obtain ⟨last, hlast, hrest⟩ := text?_of_relined hu text
    exact ⟨last, .text hlast, hrest⟩
  -- Inside, line ends are gaps; the readers of the parts have fuel for the longer of the two texts.
  | emptyArray shallow close =>
    obtain ⟨u, rfl, hu⟩ := h.of_cons rfl
    obtain ⟨last, hlast, hrest⟩ := skipGap_cons hu rfl close
    exact ⟨last, .emptyArray shallow hlast, hrest⟩
  | array shallow filled items =>
    obtain ⟨u, rfl, hu⟩ := h.of_cons rfl
    obtain ⟨last, hlast, hrest⟩ := ih.items hu.skipGap (enough_inside henough) items
    exact ⟨last, .array shallow (skipGap_ne hu rfl filled) hlast, hrest⟩
  | emptyObject shallow close =>
    obtain ⟨u, rfl, hu⟩ := h.of_cons rfl
    obtain ⟨last, hlast, hrest⟩ := skipGap_cons hu rfl close
    exact ⟨last, .emptyObject shallow hlast, hrest⟩
  | object shallow filled members =>
    obtain ⟨u, rfl, hu⟩ := h.of_cons rfl
    obtain ⟨last, hlast, hrest⟩ := ih.members hu.skipGap (enough_inside henough) members
    exact ⟨last, .object shallow (skipGap_ne hu rfl filled) hlast, hrest⟩
  | word plain word =>
    obtain ⟨last, hlast, hrest⟩ := word?_of_relined h word
    exact ⟨last, .word (beginsPlain h plain) hlast, hrest⟩
  | number plain word number =>
    obtain ⟨last, hlast, hrest⟩ := number_of_relined h number
    exact ⟨last, .number (beginsPlain h plain) (word?_eq_none_of_relined h word) hlast, hrest⟩

theorem items_succ (ih : Relines d fuel) {vs : List (Json τ)} (h : Relined s t)
    (henough : 2 * t.length + 2 ≤ enough + 1) (hread : ItemsStep d fuel depth s (.ok (vs, rest))) :
    ∃ last, ItemsStep d enough depth t (.ok (vs, last)) ∧ Relined rest last := by
  cases hread with
  | last value close =>
    obtain ⟨u, hfirst, hu⟩ := ih.value h (Nat.le_of_succ_le_succ henough) value
    obtain ⟨last, hlast, hrest⟩ := skipGap_cons hu rfl close
    exact ⟨last, .last hfirst hlast, hrest⟩
  | cons value comma items =>
    obtain ⟨u, hfirst, hu⟩ := ih.value h (Nat.le_of_succ_le_succ henough) value
    have hshort : u.length ≤ t.length := ((explains d enough).of_value hfirst).suffix.length_le
    obtain ⟨w, hw, hmore⟩ := skipGap_cons hu rfl comma
    obtain ⟨last, hlast, hrest⟩ := ih.items hmore.skipGap (enough_after henough hshort hw) items
    exact ⟨last, .cons hfirst hw hlast, hrest⟩

/-- The name of a member, its colon and its value in the other text, with the fuel for what comes
after them. -/
theorem exists_member (ih : Relines d fuel) {more name after next : List Char} {n : τ} {v : Json τ}
    (h : Relined more t) (henough : 2 * t.length + 4 ≤ enough + 1)
    (named : d.text? more = some (n, name)) (colon : skipGap name = ':' :: after)
    (value : Json.value d fuel depth (skipGap after) = .ok (v, next)) :
    ∃ u w last, d.text? t = some (n, u) ∧ skipGap u = ':' :: w ∧
      Json.value d enough depth (skipGap w) = .ok (v, last) ∧ Relined next last ∧
      2 * last.length + 2 ≤ enough + 1 := by
  obtain ⟨u, hname, hu⟩ := text?_of_relined h named
  obtain ⟨w, hw, hafter⟩ := skipGap_cons hu rfl colon
  have hshort : u.length ≤ t.length := (suffix_of_text? hname).length_le
  have hlength := enough_after (show 2 * t.length + 2 ≤ enough + 1 by omega) hshort hw
  obtain ⟨last, hlast, hnext⟩ := ih.value hafter.skipGap (Nat.le_of_succ_le hlength) value
  have hrest := ((explains d enough).of_value hlast).suffix.length_le
  exact ⟨u, w, last, hname, hw, hlast, hnext, by omega⟩

theorem members_succ (ih : Relines d fuel) {before ms : List (τ × Json τ)} (h : Relined s t)
    (henough : 2 * t.length + 2 ≤ enough + 1)
    (hread : MembersStep d fuel depth before s (.ok (ms, rest))) :
    ∃ last, MembersStep d enough depth before t (.ok (ms, last)) ∧ Relined rest last := by
  cases hread with
  | last named colon value close =>
    obtain ⟨t, rfl, ht⟩ := h.of_cons rfl
    obtain ⟨u, w, next, hname, hw, hvalue, hnext, -⟩ :=
      exists_member ih ht henough named colon value
    obtain ⟨last, hlast, hrest⟩ := skipGap_cons hnext rfl close
    exact ⟨last, .last hname hw hvalue hlast, hrest⟩
  | cons named colon value comma members =>
    obtain ⟨t, rfl, ht⟩ := h.of_cons rfl
    obtain ⟨u, w, next, hname, hw, hvalue, hnext, hfuel⟩ :=
      exists_member ih ht henough named colon value
    obtain ⟨others, hothers, hmore⟩ := skipGap_cons hnext rfl comma
    obtain ⟨last, hlast, hrest⟩ :=
      ih.members hmore.skipGap (enough_after hfuel (Nat.le_refl _) hothers) members
    exact ⟨last, .cons hname hw hvalue hothers hlast, hrest⟩

end Relines

theorem relines (d : Dialect τ) (fuel : Nat) : Relines d fuel := by
  induction fuel with
  | zero =>
    refine ⟨fun _ _ h => ?_, fun _ _ h => ?_, fun _ _ h => ?_⟩
    · rw [value_zero] at h
      cases h
    · rw [items_zero] at h
      cases h
    · rw [members_zero] at h
      cases h
  | succ fuel ih =>
    refine ⟨fun h hlength hread => ?_, fun h hlength hread => ?_, fun h hlength hread => ?_⟩
    all_goals obtain ⟨enough, rfl⟩ := Nat.exists_eq_add_of_le' (Nat.le_of_add_left_le hlength)
    · obtain ⟨last, hstep, hrest⟩ := ih.value_succ h hlength (hread ▸ value_step ..)
      exact ⟨last, hstep.eq, hrest⟩
    · obtain ⟨last, hstep, hrest⟩ := ih.items_succ h hlength (hread ▸ items_step ..)
      exact ⟨last, hstep.eq, hrest⟩
    · obtain ⟨last, hstep, hrest⟩ := ih.members_succ h hlength (hread ▸ members_step ..)
      exact ⟨last, hstep.eq, hrest⟩

/-- **The ends of lines make no difference**: the same value is read from two texts that differ in
them only. -/
theorem Relined.parse_iff {s t : List Char} (h : Relined s t) {v : Json τ} :
    parse d s = .ok v ↔ parse d t = .ok v := by
  have hread {s t : List Char} (h : Relined s t) (hs : parse d s = .ok v) :
      parse d t = .ok v := by
    unfold parse at hs
    split at hs
    · rename_i w rest hvalue
      split at hs
      · rename_i hend
        obtain rfl := Except.ok.inj hs
        have hlength : 2 * (Json.skipGap t).length + 1 ≤ 2 * t.length + 1 :=
          Nat.add_le_add_right (Nat.mul_le_mul_left 2 (Relines.length_skipGap t)) 1
        obtain ⟨last, hlast, hrest⟩ := (relines d _).value h.skipGap hlength hvalue
        have hblank := (List.isEmpty_iff.1 hend ▸ hrest.skipGap).eq_nil
        simp only [parse, hlast, hblank, List.isEmpty_nil, if_true]
      · cases hs
    · cases hs
  exact ⟨hread h, hread h.symm⟩

/-- **A value may be read before or after the ends of lines are made plain.** -/
theorem parse_plainNewlines_iff {s : List Char} {v : Json τ} :
    parse d (Text.plainNewlines s) = .ok v ↔ parse d s = .ok v :=
  (relined_plainNewlines s).parse_iff.symm

end WorkspaceAudit.Json
