import Mathlib.Data.List.Sort
import WorkspaceAudit.Proofs.Text.Located

/-!
# Offsets and lines agree

A located text is kept three times: whole, cut into lines, and as the offsets at which its lines
start. The three agree at every offset, at a line feed and at the very end too.

- `pairwise_startsFrom`, `length_startsFrom`: one start for each line, in rising order.
- `bisect`: the line of an offset, found by halving the starts; `bisect_eq_lineNumberAt`: it is the
  line that counting them gives.
- `exists_start`: the line of a place starts behind the last line feed in front of it.
- `ofContent_coherent`: the line of an offset holds it, and what is left of the line there is what
  is left of the text up to the next line feed.
-/

namespace WorkspaceAudit

namespace Text

/-- The line of a place is what stands in front of the place and the rest behind it. -/
theorem lineAround_eq_append (front rest : List Char) :
    lineAround front rest = lineAround front [] ++ rest.takeWhile (· != '\n') := by
  simp [lineAround]

theorem lineAround_of_not_mem {front : List Char} (h : '\n' ∉ front) :
    lineAround front [] = front := by
  induction front with
  | nil => rfl
  | cons c front ih =>
    obtain ⟨hc, hfront⟩ := not_or.1 (mt List.mem_cons.2 h)
    rw [lineAround_cons (Ne.symm hc) hfront, ih hfront]

end Text

namespace Located

/-! ## Where lines start -/

@[simp]
theorem length_startsFrom (first : Nat) (lines : List (List Char)) :
    (startsFrom first lines).length = lines.length := by
  induction lines generalizing first with
  | nil => rfl
  | cons line lines ih => rw [startsFrom, List.length_cons, ih, List.length_cons]

/-- Every line starts behind the one in front of it, be that empty or not. -/
theorem pairwise_startsFrom (first : Nat) (lines : List (List Char)) :
    (startsFrom first lines).Pairwise (· < ·) := by
  induction lines generalizing first with
  | nil => exact List.Pairwise.nil
  | cons line lines ih =>
    refine List.pairwise_cons.2 ⟨fun start hstart => ?_, ih _⟩
    have := le_of_mem_startsFrom hstart
    omega

/-- **The line of a place starts** as far back as the line reaches in front of the place. -/
theorem exists_start (front rest : List Char) (first : Nat) :
    ∃ start, (startsFrom first (Text.splitLines (front ++ rest)))[front.count '\n']? = some start ∧
      start + (Text.lineAround front []).length = first + front.length := by
  induction front generalizing first with
  | nil =>
    obtain ⟨more, hmore⟩ := Text.exists_splitLines_eq_cons rest
    exact ⟨first, by simp [hmore, startsFrom], rfl⟩
  | cons c front ih =>
    by_cases hc : c = '\n'
    · subst hc
      obtain ⟨start, hstart, hreach⟩ := ih (first + 1)
      refine ⟨start, ?_, ?_⟩
      · rw [List.cons_append, Text.splitLines_newline, startsFrom, List.count_cons_self,
          List.getElem?_cons_succ]
        exact hstart
      · rw [Text.lineAround_cons_of_mem (.inl rfl), hreach, List.length_cons]
        omega
    obtain ⟨more, hmore⟩ := Text.exists_splitLines_eq_cons (front ++ rest)
    rw [List.cons_append, Text.splitLines_cons hc hmore, startsFrom, List.count_cons_of_ne hc]
    -- On the first line the start is the first one; further down it is that of the rest.
    by_cases hfront : '\n' ∈ front
    · obtain ⟨start, hstart, hreach⟩ := ih (first + 1)
      obtain ⟨n, hn⟩ : ∃ n, front.count '\n' = n + 1 :=
        ⟨_, (Nat.succ_pred_eq_of_pos (List.count_pos_iff.2 hfront)).symm⟩
      rw [hmore, startsFrom, hn, List.getElem?_cons_succ] at hstart
      refine ⟨start, ?_, ?_⟩
      · rw [hn, List.getElem?_cons_succ, ← hstart, List.length_cons]
        congr 2
        omega
      · rw [Text.lineAround_cons_of_mem (.inr hfront), hreach, List.length_cons]
        omega
    · refine ⟨first, ?_, ?_⟩
      · rw [List.count_eq_zero.2 hfront, List.getElem?_cons_zero]
      · rw [Text.lineAround_cons hc hfront, Text.lineAround_of_not_mem hfront]

/-! ## The line by halving -/

/-- How many starts are at an offset or before, if those in front of `low` are and those from
`high` on are not: halve what is between the two until nothing is. -/
def bisectBetween (starts : List Nat) (offset : Int) (low high : Nat) : Nat :=
  if low < high then
    if offset < starts.getD ((low + high) / 2) 0 then
      bisectBetween starts offset low ((low + high) / 2)
    else bisectBetween starts offset ((low + high) / 2 + 1) high
  else low
termination_by high - low

/-- The number of the line that holds an offset, found by halving the starts. -/
def bisect (t : Located) (offset : Int) : Nat :=
  bisectBetween t.starts offset 0 t.starts.length

/-- The starts in front of `low` are at an offset or before, and those from `high` on behind it. -/
structure Straddles (starts : List Nat) (offset : Int) (low high : Nat) : Prop where
  ordered : low ≤ high
  inside : high ≤ starts.length
  below : ∀ start ∈ starts.take low, (start : Int) ≤ offset
  above : ∀ start ∈ starts.drop high, offset < (start : Int)

namespace Straddles

variable {starts : List Nat} {offset : Int} {low high : Nat}

theorem whole (starts : List Nat) (offset : Int) : Straddles starts offset 0 starts.length where
  ordered := Nat.zero_le _
  inside := Nat.le_refl _
  below := by simp
  above := by simp

/-- If a start is behind the offset, so are those after it: the upper bound comes down to it. -/
theorem lower (h : Straddles starts offset low high) (hsorted : starts.Pairwise (· < ·))
    {middle : Nat} (hlow : low ≤ middle) (hhigh : middle < high)
    (hbehind : offset < starts.getD middle 0) : Straddles starts offset low middle := by
  have hmiddle : middle < starts.length := Nat.lt_of_lt_of_le hhigh h.inside
  rw [show starts.getD middle 0 = starts[middle] by simp [hmiddle]] at hbehind
  refine ⟨hlow, Nat.le_of_lt hmiddle, h.below, ?_⟩
  intro start hstart
  obtain ⟨i, hi, rfl⟩ := List.mem_drop_iff_getElem.1 hstart
  have hrise : starts[middle] ≤ starts[middle + i] :=
    hsorted.sortedLT.getElem_le_getElem_iff.2 (Nat.le_add_right middle i)
  omega

/-- If a start is not behind the offset, nor are those before it: the lower bound goes past it. -/
theorem raise (h : Straddles starts offset low high) (hsorted : starts.Pairwise (· < ·))
    {middle : Nat} (hhigh : middle < high) (hbefore : ¬offset < starts.getD middle 0) :
    Straddles starts offset (middle + 1) high := by
  have hmiddle : middle < starts.length := Nat.lt_of_lt_of_le hhigh h.inside
  rw [show starts.getD middle 0 = starts[middle] by simp [hmiddle]] at hbefore
  refine ⟨hhigh, h.inside, ?_, h.above⟩
  intro start hstart
  obtain ⟨i, hi, rfl⟩ := List.mem_take_iff_getElem.1 hstart
  have hrise : starts[i] ≤ starts[middle] := hsorted.sortedLT.getElem_le_getElem_iff.2 (by omega)
  omega

/-- Where the two bounds meet, they count the starts at the offset or before. -/
theorem countP_eq (h : Straddles starts offset low low) :
    starts.countP (fun start : Nat => decide ((start : Int) ≤ offset)) = low := by
  have hfront : (starts.take low).countP (fun start : Nat => decide ((start : Int) ≤ offset)) =
      (starts.take low).length :=
    List.countP_eq_length.2 fun start hstart => decide_eq_true (h.below start hstart)
  have hback : (starts.drop low).countP (fun start : Nat => decide ((start : Int) ≤ offset)) = 0 :=
    List.countP_eq_zero.2 fun start hstart => by simpa using h.above start hstart
  rw [← List.take_append_drop low starts, List.countP_append, hfront, hback, List.length_take]
  exact Nat.min_eq_left h.inside

/-- The halving counts the starts at the offset or before, from any bounds that straddle it. -/
theorem bisectBetween_eq (h : Straddles starts offset low high)
    (hsorted : starts.Pairwise (· < ·)) :
    bisectBetween starts offset low high =
      starts.countP (fun start : Nat => decide ((start : Int) ≤ offset)) := by
  fun_induction bisectBetween starts offset low high with
  | case1 low high hlt hbehind ih => exact ih (h.lower hsorted (by omega) (by omega) hbehind)
  | case2 low high hlt hbefore ih => exact ih (h.raise hsorted (by omega) hbefore)
  | case3 low high hge =>
    obtain rfl : low = high := Nat.le_antisymm h.ordered (Nat.le_of_not_lt hge)
    exact h.countP_eq.symm

end Straddles

/-- **Halving and counting** give the same line, for offsets outside of the text too. -/
theorem bisect_eq_lineNumberAt (content : List Char) (offset : Int) :
    (ofContent content).bisect offset = (ofContent content).lineNumberAt offset :=
  (Straddles.whole _ offset).bisectBetween_eq (pairwise_startsFrom 0 (Text.splitLines content))

/-! ## The two views at an offset -/

/-- The line of a place holds it, and has left there what the text has left of the line. -/
theorem holds_length (front rest : List Char) :
    ∃ start line,
      (ofContent (front ++ rest)).starts[front.count '\n']? = some start ∧
      (ofContent (front ++ rest)).lines[front.count '\n']? = some line ∧
      start ≤ front.length ∧ front.length ≤ start + line.length ∧
      (ofContent (front ++ rest)).restOfLine front.length = line.drop (front.length - start) := by
  obtain ⟨start, hstart, hreach⟩ := exists_start front rest 0
  have hsplit := Text.lineAround_eq_append front rest
  have hinto : front.length - start = (Text.lineAround front []).length := by omega
  refine ⟨start, Text.lineAround front rest, hstart, Text.getElem?_splitLines front rest,
    by omega, ?_, ?_⟩
  · rw [hsplit, List.length_append]
    omega
  · rw [restOfLine_length, hsplit, hinto, List.drop_left]

/-- **Offsets and lines agree.** The lines joined are the text, and each has one start, in rising
order. An offset up to the end of the text is on the line whose number is one more than the line
feeds in front of it, whether the starts are counted or halved. That line is there, it holds the
offset, and the rest of the line there is its text without what stands in front. -/
theorem ofContent_coherent (content : List Char) :
    Text.joinLines (ofContent content).lines = content ∧
    (ofContent content).starts.length = (ofContent content).lines.length ∧
    (ofContent content).starts.Pairwise (· < ·) ∧
    ∀ offset : Nat, offset ≤ content.length → ∃ number start line,
      (ofContent content).lineNumberAt offset = number ∧
      (ofContent content).bisect offset = number ∧
      number = 1 + (content.take offset).count '\n' ∧
      1 ≤ number ∧ number ≤ (ofContent content).lines.length ∧
      (ofContent content).starts[number - 1]? = some start ∧
      (ofContent content).lines[number - 1]? = some line ∧
      start ≤ offset ∧ offset ≤ start + line.length ∧
      (ofContent content).lineText number = line ∧
      (ofContent content).restOfLine offset =
        ((ofContent content).lineText number).drop (offset - start) := by
  refine ⟨Text.joinLines_splitLines content, length_startsFrom 0 _, pairwise_startsFrom 0 _,
    fun offset hoffset => ?_⟩
  -- The offset cuts the text in two; what is known of places is known of the cut.
  obtain ⟨front, rest, rfl, rfl⟩ :
      ∃ front rest, content = front ++ rest ∧ offset = front.length :=
    ⟨content.take offset, content.drop offset, (List.take_append_drop offset content).symm,
      (List.length_take_of_le hoffset).symm⟩
  obtain ⟨start, line, hstart, hline, hfrom, hto, hrest⟩ := holds_length front rest
  have hnumber := lineNumberAt_length front rest
  have htext :
      (ofContent (front ++ rest)).lineText ((front.count '\n' + 1 : Nat) : Int) = line := by
    rw [lineText_around]
    exact Option.some.inj ((Text.getElem?_splitLines front rest).symm.trans hline)
  have hthere : front.count '\n' < (ofContent (front ++ rest)).lines.length :=
    (List.getElem?_eq_some_iff.1 hline).1
  refine ⟨front.count '\n' + 1, start, line, hnumber, ?_, ?_, Nat.le_add_left 1 _, hthere, hstart,
    hline, hfrom, hto, htext, ?_⟩
  · rw [bisect_eq_lineNumberAt, hnumber]
  · rw [List.take_left, Nat.add_comm]
  · rw [htext, hrest]

/-- The end of a text that ends in a line feed is on a last line, which is empty. -/
theorem ofContent_coherent_atEnd :
    5 ≤ "a\n\nb\n".toList.length ∧
    (ofContent "a\n\nb\n".toList).lineNumberAt 5 = 4 ∧
    (ofContent "a\n\nb\n".toList).bisect 5 = 4 ∧
    (ofContent "a\n\nb\n".toList).lines[3]? = some [] ∧
    (ofContent "a\n\nb\n".toList).starts[3]? = some 5 := by
  obtain ⟨-, -, -, hplaces⟩ := ofContent_coherent "a\n\nb\n".toList
  obtain ⟨number, start, line, hcounted, hhalved, hfeeds, -, -, hstart, hline, hfrom, hto, -, -⟩ :=
    hplaces 5 (by decide)
  obtain rfl : number = 4 := hfeeds.trans (by decide)
  obtain rfl : line = [] := Option.some.inj (hline.symm.trans (by decide))
  obtain rfl : start = 5 := Nat.le_antisymm hfrom hto
  exact ⟨by decide, hcounted, hhalved, hline, hstart⟩

end Located

end WorkspaceAudit
