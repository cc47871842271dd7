import WorkspaceAudit.Text.Located

/-!
# The line of a place

A place in a text is between a part in front of it and the rest. Its line is found by counting the
offsets at which lines start; here the number and the text of that line are told by the two parts
alone.

- `lineNumberAt_length`: the number of the line is one more than the line feeds in front.
- `lineText_around`: its text goes back to the last line feed and on to the next one.
- `lineNumberAt_mono`: lines are counted in the order of places.
- `infix_joinLines_iff`: what has no line feed in it is in a text iff it is in one of its lines;
  `infix_joinLines_newline_iff`: what has one in it, iff it is at the end of a line and at the start
  of the next.
-/

namespace WorkspaceAudit

namespace Text

/-- A text without the separator is one piece. -/
theorem splitOn_of_not_mem {sep : Char} {s : List Char} (h : sep ∉ s) : splitOn sep s = [s] := by
  induction s with
  | nil => rfl
  | cons c s ih =>
    obtain ⟨hc, hs⟩ := not_or.1 (mt List.mem_cons.2 h)
    rw [splitOn, List.foldr_cons, if_neg (Ne.symm hc)]
    have hrest := ih hs
    rw [splitOn] at hrest
    rw [hrest]

/-- No piece has the separator in it. -/
theorem not_mem_of_mem_splitOn {sep : Char} {s piece : List Char} (h : piece ∈ splitOn sep s) :
    sep ∉ piece := by
  induction s generalizing piece with
  | nil =>
    obtain rfl := List.mem_singleton.1 h
    exact List.not_mem_nil
  | cons c s ih =>
    rw [splitOn, List.foldr_cons] at h
    split at h
    · rcases List.mem_cons.1 h with rfl | h
      · exact List.not_mem_nil
      · exact ih h
    · rename_i hc
      split at h
      · obtain rfl := List.mem_singleton.1 h
        simpa using Ne.symm hc
      · rename_i first more hpieces
        rcases List.mem_cons.1 h with rfl | h
        · have hfirst : sep ∉ first := ih (by rw [splitOn, hpieces]; exact List.mem_cons_self)
          simpa using ⟨Ne.symm hc, hfirst⟩
        · exact ih (by rw [splitOn, hpieces]; exact List.mem_cons_of_mem _ h)

/-- The characters of a piece are characters of the text. -/
theorem mem_of_mem_splitOn {sep c : Char} {s piece : List Char} (h : piece ∈ splitOn sep s)
    (hc : c ∈ piece) : c ∈ s := by
  induction s generalizing piece with
  | nil =>
    obtain rfl := List.mem_singleton.1 h
    cases hc
  | cons d s ih =>
    rw [splitOn, List.foldr_cons] at h
    split at h
    · rcases List.mem_cons.1 h with rfl | h
      · cases hc
      · exact List.mem_cons_of_mem d (ih h hc)
    · split at h
      · obtain rfl := List.mem_singleton.1 h
        exact List.mem_cons.2 (.inl (List.mem_singleton.1 hc))
      · rename_i first more hpieces
        rcases List.mem_cons.1 h with rfl | h
        · refine (List.mem_cons.1 hc).elim (fun hd => List.mem_cons.2 (.inl hd)) fun hc => ?_
          exact List.mem_cons_of_mem d (ih (by rw [splitOn, hpieces]; exact List.mem_cons_self) hc)
        · exact List.mem_cons_of_mem d
            (ih (by rw [splitOn, hpieces]; exact List.mem_cons_of_mem _ h) hc)

/-- The first piece ends at the first separator. -/
theorem splitOn_append {sep : Char} {s : List Char} (h : sep ∉ s) (rest : List Char) :
    splitOn sep (s ++ sep :: rest) = s :: splitOn sep rest := by
  induction s with
  | nil => simp [splitOn]
  | cons c s ih =>
    obtain ⟨hc, hs⟩ := not_or.1 (mt List.mem_cons.2 h)
    have hrest := ih hs
    rw [splitOn] at hrest
    rw [splitOn, List.cons_append, List.foldr_cons, if_neg (Ne.symm hc), hrest]

/-- A character that is no separator stands at the start of the first piece. -/
theorem splitOn_cons {sep c : Char} {s piece : List Char} {more : List (List Char)} (hc : c ≠ sep)
    (h : splitOn sep s = piece :: more) : splitOn sep (c :: s) = (c :: piece) :: more := by
  simp only [splitOn, List.foldr_cons, if_neg hc] at h ⊢
  rw [h]

/-- The first piece ends at the first separator. -/
theorem exists_splitOn_eq_cons (sep : Char) (s : List Char) :
    ∃ more, splitOn sep s = s.takeWhile (· != sep) :: more := by
  induction s with
  | nil => exact ⟨[], rfl⟩
  | cons c s ih =>
    obtain ⟨more, hmore⟩ := ih
    by_cases hc : c = sep
    · subst hc
      refine ⟨splitOn c s, ?_⟩
      rw [List.takeWhile_cons_of_neg (by simp)]
      exact splitOn_append List.not_mem_nil s
    · exact ⟨more, by rw [splitOn_cons hc hmore, List.takeWhile_cons_of_pos (by simpa using hc)]⟩

/-- A text is its pieces put together again. -/
theorem joinWith_splitOn (sep : Char) (s : List Char) : joinWith [sep] (splitOn sep s) = s := by
  induction s with
  | nil => rfl
  | cons c s ih =>
    obtain ⟨more, hmore⟩ := exists_splitOn_eq_cons sep s
    rw [hmore] at ih
    by_cases hc : c = sep
    · subst hc
      have hcut : splitOn c (c :: s) = [] :: splitOn c s := splitOn_append List.not_mem_nil s
      rw [hcut, hmore]
      exact congrArg (c :: ·) ih
    · rw [splitOn_cons hc hmore]
      cases more with
      | nil => exact congrArg (c :: ·) ih
      | cons piece more => exact congrArg (c :: ·) ih

theorem splitLines_newline (s : List Char) : splitLines ('\n' :: s) = [] :: splitLines s := rfl

/-- A character that is no line feed stands at the start of the first line. -/
theorem splitLines_cons {c : Char} {s line : List Char} {more : List (List Char)} (hc : c ≠ '\n')
    (h : splitLines s = line :: more) : splitLines (c :: s) = (c :: line) :: more :=
  splitOn_cons hc h

/-- The first line ends at the first line feed. -/
theorem exists_splitLines_eq_cons (s : List Char) :
    ∃ more, splitLines s = s.takeWhile (· != '\n') :: more :=
  exists_splitOn_eq_cons '\n' s

/-- A text is its lines put together again. -/
theorem joinLines_splitLines (s : List Char) : joinLines (splitLines s) = s :=
  joinWith_splitOn '\n' s

/-- What has no line feed in it and begins a text is in its first line. -/
theorem prefix_line_iff {v line rest : List Char} (hv : '\n' ∉ v) :
    v <+: line ++ '\n' :: rest ↔ v <+: line := by
  refine ⟨fun h => ?_, fun h => h.trans (List.prefix_append line _)⟩
  induction line generalizing v with
  | nil =>
    rcases List.prefix_cons_iff.1 h with rfl | ⟨more, rfl, -⟩
    · exact List.prefix_rfl
    · simp at hv
  | cons c line ih =>
    rcases List.prefix_cons_iff.1 h with rfl | ⟨more, rfl, hmore⟩
    · exact List.nil_prefix
    · exact (List.prefix_cons_inj c).2 (ih (fun hmem => hv (List.mem_cons_of_mem c hmem)) hmore)

/-- What has no line feed in it is in a text iff it is in one of its lines. -/
theorem infix_joinLines_iff {w : List Char} {lines : List (List Char)} (hne : w ≠ [])
    (hline : '\n' ∉ w) : w <:+: joinLines lines ↔ ∃ line ∈ lines, w <:+: line := by
  have hcut (front back : List Char) :
      w <:+: front ++ ['\n'] ++ back ↔ w <:+: front ∨ w <:+: back := by
    rw [List.append_assoc, List.singleton_append, List.infix_append_iff, List.infix_cons_iff]
    -- No piece in front of the line feed goes on behind it.
    have hstop {piece : List Char} (hpiece : '\n' ∉ piece) (h : piece <+: '\n' :: back) :
        piece = [] :=
      List.prefix_nil.1 ((@prefix_line_iff _ [] back hpiece).1 h)
    constructor
    · rintro (h | (h | h) | ⟨u, v, rfl, hu, hv⟩)
      · exact .inl h
      · exact absurd (hstop hline h) hne
      · exact .inr h
      · obtain rfl := hstop (fun h => hline (List.mem_append_right _ h)) hv
        rw [List.append_nil]
        exact .inl hu.isInfix
    · rintro (h | h)
      · exact .inl h
      · exact .inr (.inl (.inr h))
  induction lines with
  | nil => simp [joinLines, joinWith, hne]
  | cons line more ih =>
    cases more with
    | nil => simp [joinLines, joinWith]
    | cons next more =>
      show w <:+: line ++ ['\n'] ++ joinLines (next :: more) ↔ _
      simp only [hcut, ih, List.mem_cons, exists_eq_or_imp]

theorem prefix_joinLines_iff {v line : List Char} {more : List (List Char)} (hv : '\n' ∉ v) :
    v <+: joinLines (line :: more) ↔ v <+: line := by
  cases more with
  | nil => exact Iff.rfl
  | cons next more =>
    show v <+: line ++ ['\n'] ++ joinLines (next :: more) ↔ _
    rw [List.append_assoc, List.singleton_append, prefix_line_iff hv]

/-- Two texts are cut at their first line feeds. -/
theorem prefix_newline_iff {u v line rest : List Char} (hu : '\n' ∉ u) (hline : '\n' ∉ line) :
    u ++ '\n' :: v <+: line ++ '\n' :: rest ↔ u = line ∧ v <+: rest := by
  induction u generalizing line with
  | nil =>
    cases line with
    | nil => simp
    | cons d line =>
      have hd : '\n' ≠ d := fun hd => hline (hd ▸ List.mem_cons_self)
      simp [List.cons_prefix_cons, hd]
  | cons c u ih =>
    cases line with
    | nil =>
      have hc : c ≠ '\n' := fun hc => hu (hc ▸ List.mem_cons_self)
      simp [List.cons_prefix_cons, hc]
    | cons d line =>
      rw [List.cons_append, List.cons_append, List.cons_prefix_cons,
        ih (fun hmem => hu (List.mem_cons_of_mem c hmem))
          (fun hmem => hline (List.mem_cons_of_mem d hmem)), List.cons.injEq, and_assoc]

/-- What has a line feed in it begins in the first line, and goes on right behind it, or is behind
the first line. -/
theorem infix_newline_iff {u v line rest : List Char} (hu : '\n' ∉ u) (hline : '\n' ∉ line) :
    u ++ '\n' :: v <:+: line ++ '\n' :: rest ↔
      u <:+ line ∧ v <+: rest ∨ u ++ '\n' :: v <:+: rest := by
  induction line with
  | nil =>
    have hfirst := @prefix_newline_iff u v [] rest hu hline
    rw [List.nil_append] at hfirst ⊢
    rw [List.infix_cons_iff, hfirst, List.suffix_nil]
  | cons c line ih =>
    have hfirst := @prefix_newline_iff u v (c :: line) rest hu hline
    rw [List.cons_append] at hfirst ⊢
    rw [List.infix_cons_iff, hfirst, ih fun hmem => hline (List.mem_cons_of_mem c hmem),
      List.suffix_cons_iff, or_and_right, or_assoc]

/-- **What has one line feed in it** is in a text of lines iff its two parts are at the end of a
line and at the start of the next. -/
theorem infix_joinLines_newline_iff {u v : List Char} {lines : List (List Char)} (hu : '\n' ∉ u)
    (hv : '\n' ∉ v) (hlines : ∀ line ∈ lines, '\n' ∉ line) :
    u ++ '\n' :: v <:+: joinLines lines ↔
      ∃ a b, [a, b] <:+: lines ∧ u <:+ a ∧ v <+: b := by
  induction lines with
  | nil => simp [joinLines, joinWith]
  | cons line more ih =>
    obtain ⟨hline, hmore⟩ := List.forall_mem_cons.1 hlines
    cases more with
    | nil =>
      refine iff_of_false (fun h => hline (h.subset (by simp))) ?_
      rintro ⟨a, b, hadjacent, -⟩
      simpa using hadjacent.length_le
    | cons next more =>
      show u ++ '\n' :: v <:+: line ++ ['\n'] ++ joinLines (next :: more) ↔ _
      rw [List.append_assoc, List.singleton_append, infix_newline_iff hu hline, ih hmore,
        prefix_joinLines_iff hv]
      constructor
      · rintro (⟨hfront, hback⟩ | ⟨a, b, hadjacent, hparts⟩)
        · exact ⟨line, next, ⟨[], more, by simp⟩, hfront, hback⟩
        · exact ⟨a, b, List.infix_cons hadjacent, hparts⟩
      · rintro ⟨a, b, hadjacent, hfront, hback⟩
        rcases List.infix_cons_iff.1 hadjacent with hfirst | hlater
        · obtain ⟨rfl, hnext⟩ := List.cons_prefix_cons.1 hfirst
          obtain ⟨rfl, -⟩ := List.cons_prefix_cons.1 hnext
          exact .inl ⟨hfront, hback⟩
        · exact .inr ⟨a, b, hlater, hfront, hback⟩

/-- The line of the place between two parts of a text: back to the last line feed and on to the
next one. -/
def lineAround (front rest : List Char) : List Char :=
  (front.reverse.takeWhile (· != '\n')).reverse ++ rest.takeWhile (· != '\n')

/-- What stands behind a line feed, and a line feed itself, is not part of the line in front. -/
theorem takeWhile_concat {c : Char} {s : List Char} (h : c = '\n' ∨ '\n' ∈ s) :
    (s ++ [c]).takeWhile (· != '\n') = s.takeWhile (· != '\n') := by
  induction s with
  | nil =>
    obtain rfl : c = '\n' := by simpa using h
    rfl
  | cons d s ih =>
    by_cases hd : d = '\n'
    · simp [hd]
    · simp only [List.mem_cons, Ne.symm hd, false_or] at h
      simpa [hd] using ih h

theorem lineAround_cons_of_mem {c : Char} {front rest : List Char} (h : c = '\n' ∨ '\n' ∈ front) :
    lineAround (c :: front) rest = lineAround front rest := by
  rw [lineAround, List.reverse_cons, takeWhile_concat (by simpa using h), lineAround]

theorem lineAround_cons {c : Char} {front rest : List Char} (hc : c ≠ '\n') (h : '\n' ∉ front) :
    lineAround (c :: front) rest = c :: lineAround front rest := by
  have hback : ∀ d ∈ front.reverse, (d != '\n') = true := by
    intro d hd
    simpa using fun heq : d = '\n' => h (heq ▸ List.mem_reverse.1 hd)
  have hwhole := @List.takeWhile_append_of_pos _ _ front.reverse [] hback
  rw [List.append_nil] at hwhole
  rw [lineAround, List.reverse_cons, List.takeWhile_append_of_pos hback, lineAround, hwhole]
  simp [hc]

theorem getElem?_splitLines (front rest : List Char) :
    (splitLines (front ++ rest))[front.count '\n']? = some (lineAround front rest) := by
  induction front with
  | nil =>
    obtain ⟨more, hmore⟩ := exists_splitLines_eq_cons rest
    simp [hmore, lineAround]
  | cons c front ih =>
    by_cases hc : c = '\n'
    · subst hc
      rw [List.cons_append, splitLines_newline, List.count_cons_self, List.getElem?_cons_succ, ih,
        lineAround_cons_of_mem (.inl rfl)]
    obtain ⟨more, hmore⟩ := exists_splitLines_eq_cons (front ++ rest)
    rw [List.cons_append, splitLines_cons hc hmore, List.count_cons_of_ne hc]
    rw [hmore] at ih
    -- In the first line the character counts; further down the line is that of the rest.
    by_cases hfront : '\n' ∈ front
    · obtain ⟨n, hn⟩ : ∃ n, front.count '\n' = n + 1 :=
        ⟨_, (Nat.succ_pred_eq_of_pos (List.count_pos_iff.2 hfront)).symm⟩
      rw [hn] at ih ⊢
      rw [List.getElem?_cons_succ] at ih ⊢
      rw [ih, lineAround_cons_of_mem (.inr hfront)]
    · rw [List.count_eq_zero.2 hfront, List.getElem?_cons_zero, Option.some.injEq] at ih ⊢
      rw [ih, lineAround_cons hc hfront]

end Text

namespace Located

theorem le_of_mem_startsFrom {lines : List (List Char)} {first start : Nat}
    (h : start ∈ startsFrom first lines) : first ≤ start := by
  induction lines generalizing first with
  | nil => cases h
  | cons line lines ih =>
    rcases List.mem_cons.1 h with rfl | h
    · exact Nat.le_refl _
    · have := ih h
      omega

/-- The starts that are not behind a place: one more than the line feeds in front of it. -/
theorem countP_startsFrom (front rest : List Char) (first : Nat) :
    (startsFrom first (Text.splitLines (front ++ rest))).countP
      (fun start => decide (start ≤ first + front.length)) = front.count '\n' + 1 := by
  induction front generalizing first with
  | nil =>
    obtain ⟨more, hmore⟩ := Text.exists_splitLines_eq_cons rest
    rw [List.nil_append, hmore, startsFrom, List.countP_cons_of_pos (by simp)]
    simp only [List.count_nil, Nat.add_right_cancel_iff, List.countP_eq_zero, decide_eq_true_eq]
    intro start hstart
    have := le_of_mem_startsFrom hstart
    simp only [List.length_nil]
    omega
  | cons c front ih =>
    have hlength : first + (c :: front).length = first + 1 + front.length := by
      simp only [List.length_cons]
      omega
    have hfirst : first ≤ first + 1 + front.length := by omega
    rw [hlength]
    have hrest := ih (first + 1)
    by_cases hc : c = '\n'
    · subst hc
      rw [List.cons_append, Text.splitLines_newline, startsFrom, List.count_cons_self,
        List.countP_cons_of_pos (by simpa using hfirst)]
      exact congrArg (· + 1) hrest
    · -- The first line is longer by a character, and the others start where they did.
      obtain ⟨more, hmore⟩ := Text.exists_splitLines_eq_cons (front ++ rest)
      rw [hmore, startsFrom, List.countP_cons_of_pos (by simp)] at hrest
      rw [List.cons_append, Text.splitLines_cons hc hmore, startsFrom, List.count_cons_of_ne hc,
        List.countP_cons_of_pos (by simpa using hfirst), ← hrest, List.length_cons]
      congr 3
      omega

/-- **The number of a line** is one more than the line feeds in front. -/
theorem lineNumberAt_length (front rest : List Char) :
    (ofContent (front ++ rest)).lineNumberAt front.length = front.count '\n' + 1 := by
  simpa [lineNumberAt, ofContent] using countP_startsFrom front rest 0

/-- **The rest of a line** goes on to the next line feed. -/
theorem restOfLine_length (front rest : List Char) :
    (ofContent (front ++ rest)).restOfLine front.length = rest.takeWhile (· != '\n') := by
  have hplace : (ofContent (front ++ rest)).place front.length = front.length := by
    rw [place, if_pos (by omega), Int.toNat_natCast]
  rw [restOfLine, hplace]
  exact congrArg (List.takeWhile _) (List.drop_left ..)

/-- A place further on is on the same line or a later one. -/
theorem lineNumberAt_mono (t : Located) {offset other : Int} (h : offset ≤ other) :
    t.lineNumberAt offset ≤ t.lineNumberAt other := by
  unfold lineNumberAt
  apply List.countP_mono_left
  intro start _ hstart
  rw [decide_eq_true_eq] at hstart ⊢
  omega

/-- **The text of a line** goes back to the last line feed and on to the next one. -/
theorem lineText_around (front rest : List Char) :
    (ofContent (front ++ rest)).lineText ((front.count '\n' + 1 : Nat) : Int) =
      Text.lineAround front rest := by
  have hpos : (1 : Int) ≤ ((front.count '\n' + 1 : Nat) : Int) := by omega
  have hindex : (((front.count '\n' + 1 : Nat) : Int) - 1).toNat = front.count '\n' := by omega
  rw [lineText, if_pos hpos, hindex]
  simp only [ofContent, Text.getElem?_splitLines, Option.getD_some]

end Located

end WorkspaceAudit
