import WorkspaceAudit.Proofs.Ignore.Meaning
import WorkspaceAudit.Proofs.Pattern.Expression

/-!
# Globs by way of regular expressions

A glob can be turned into a regular expression by replacing parts of its text one after the other,
and the result be read and searched.

- `substituted_eq`: none of the replacements touches what another one has written, so that the
  result is the row of pieces, each as an expression.
- `read_pieces`: the expressions of pieces are read as the patterns of the pieces.
- `emitted_meaning`: the expression is well formed, and a search for it accepts exactly
  the paths that the text of the glob means.
-/

namespace WorkspaceAudit

namespace Glob

open Pattern

/-! ## The replacements do not meet -/

theorem replaceAll_single (a : Char) (new s : List Char) :
    Text.replaceAll [a] new s = s.flatMap fun c => if c = a then new else [c] := by
  induction s with
  | nil => simp [Text.replaceAll]
  | cons c s ih =>
    rw [Text.replaceAll, List.flatMap_cons, ← ih]
    by_cases h : c = a
    · simp [h]
    · simp [h, Ne.symm h]

/-- What becomes of a character after pairs of stars have been replaced. -/
def single (c : Char) : List Char :=
  if c = '*' then "[^/]*".toList
  else if c = '\x00' then ".*".toList
  else if c = '?' then "[^/]".toList
  else [c]

theorem replace_singles (s : List Char) :
    Text.replaceAll ['?'] "[^/]".toList (Text.replaceAll ['\x00'] ".*".toList
      (Text.replaceAll ['*'] "[^/]*".toList s)) = s.flatMap single := by
  simp only [replaceAll_single, List.flatMap_assoc]
  refine congrArg (List.flatMap · s) (funext fun c => ?_)
  by_cases h₁ : c = '*'
  · subst h₁; decide
  by_cases h₂ : c = '\x00'
  · subst h₂; decide
  by_cases h₃ : c = '?'
  · subst h₃; decide
  simp [single, h₁, h₂, h₃]

theorem replace_pair (rest : List Char) : Text.replaceAll ['*', '*'] ['\x00'] ('*' :: '*' :: rest) =
    '\x00' :: Text.replaceAll ['*', '*'] ['\x00'] rest := by
  rw [Text.replaceAll]; simp

theorem replace_no_pair {c : Char} {rest : List Char} (h : c = '*' → rest.head? ≠ some '*') :
    Text.replaceAll ['*', '*'] ['\x00'] (c :: rest) =
      c :: Text.replaceAll ['*', '*'] ['\x00'] rest := by
  rw [Text.replaceAll, if_neg]
  rintro hpair
  cases rest with
  | nil => simp at hpair
  | cons d rest => simp at hpair h; exact h hpair.1.symm hpair.2.symm

theorem specials_eq :
    specials = ['.', '+', '^', '$', '\x7b', '\x7d', '(', ')', '|', '[', ']', '\\'] :=
  rfl

/-- A star at the start of an escaped text is one of the text itself. -/
theorem head?_escaped_ne {s : List Char} (h : s.head? ≠ some '*') :
    (s.flatMap escape).head? ≠ some '*' := by
  cases s with
  | nil => simp
  | cons c s =>
    rw [List.flatMap_cons, escape]
    split
    · simp
    · simpa using h

theorem replace_escape {c : Char} {rest : List Char} (hc : c ≠ '*') :
    Text.replaceAll ['*', '*'] ['\x00'] (escape c ++ rest) =
      escape c ++ Text.replaceAll ['*', '*'] ['\x00'] rest := by
  rw [escape]
  split
  · rw [List.cons_append, List.singleton_append, replace_no_pair (by simp),
      replace_no_pair (by simp [hc])]
    rfl
  · exact replace_no_pair (by simp [hc])

theorem flatMap_single_escape {c : Char} (h₁ : c ≠ '*') (h₂ : c ≠ '\x00') (h₃ : c ≠ '?') :
    (escape c).flatMap single = Piece.expression (.char c) := by
  rw [Piece.expression, escape]
  split <;> simp [single, h₁, h₂, h₃]

/-- **The replacements give the expressions of the pieces, in order.** -/
theorem substituted_eq (s : List Char) : substituted s = (piecesOf s).flatMap Piece.expression := by
  simp only [substituted, replace_singles]
  have hstar : escape '*' = ['*'] := by decide
  -- By the pieces: two stars, one star, a question mark, any other character.
  fun_induction piecesOf s with
  | case1 => simp [Text.replaceAll]
  | case2 rest ih =>
    rw [List.flatMap_cons, List.flatMap_cons, hstar, List.singleton_append, List.singleton_append,
      replace_pair, List.flatMap_cons, ih]
    rfl
  | case3 rest hrest ih =>
    have hhead : rest.head? ≠ some '*' := by
      cases rest with
      | nil => simp
      | cons d rest => rintro h; exact hrest rest (by rw [Option.some.inj h])
    rw [List.flatMap_cons, hstar, List.singleton_append,
      replace_no_pair fun _ => head?_escaped_ne hhead, List.flatMap_cons, ih]
    rfl
  | case4 rest ih =>
    rw [List.flatMap_cons, replace_escape (by decide), List.flatMap_append, ih]
    rfl
  | case5 c rest _ hstar hquestion ih =>
    rw [List.flatMap_cons, replace_escape hstar, List.flatMap_append, ih, List.flatMap_cons]
    by_cases hnul : c = '\x00'
    · subst hnul; rfl
    · rw [flatMap_single_escape hstar hnul hquestion]
      simp [hnul]

/-! ## The expression is well formed -/

/-- A piece whose expression is read as its pattern: stars and question marks stand for pieces of
their own and never for themselves. -/
def Piece.Readable : Piece → Prop
  | .char c => c ≠ '*' ∧ c ≠ '?'
  | _ => True

theorem readable_of_mem_piecesOf {s : List Char} : ∀ p ∈ piecesOf s, p.Readable := by
  fun_induction piecesOf s with
  | case1 => simp
  | case2 rest ih => exact List.forall_mem_cons.2 ⟨trivial, ih⟩
  | case3 rest hrest ih => exact List.forall_mem_cons.2 ⟨trivial, ih⟩
  | case4 rest ih => exact List.forall_mem_cons.2 ⟨trivial, ih⟩
  | case5 c rest _ hstar hquestion ih =>
    refine List.forall_mem_cons.2 ⟨?_, ih⟩
    split
    · trivial
    · exact ⟨hstar, hquestion⟩

theorem plainStep_literal {r : Reader} {c : Char} (hs : specials.contains c = false)
    (hstar : c ≠ '*') (hquestion : c ≠ '?') :
    r.plainStep c = some (r.add (.char (.oneOf [c]))) := by
  rw [specials_eq] at hs
  unfold Reader.plainStep
  split <;> simp at hs hstar hquestion ⊢

theorem isAlphanum_of_special {c : Char} (h : specials.contains c = true) :
    c.isAlphanum = false := by
  rw [specials_eq] at h
  simp only [List.contains_cons, List.contains_nil, Bool.or_false, Bool.or_eq_true, beq_iff_eq] at h
  rcases h with rfl | rfl | rfl | rfl | rfl | rfl | rfl | rfl | rfl | rfl | rfl | rfl <;> decide

/-- The expression of a piece is read as its pattern. -/
theorem read_piece {p : Piece} (hp : p.Readable) {r : Reader} (hr : r.mode = .plain) :
    r.read p.expression = some (r.add p.pattern) := by
  obtain ⟨mode, opened, frame, around⟩ := r
  obtain rfl : mode = .plain := hr
  cases p with
  | anyText => rfl
  | anyName => rfl
  | anyChar => rfl
  | char c =>
    rw [Piece.expression, escape]
    split
    · rename_i hspecial
      simp [Reader.read, Reader.step, Reader.plainStep, isAlphanum_of_special hspecial,
        Reader.add, Piece.pattern]
    · rename_i hspecial
      simp [Reader.read, Reader.step, plainStep_literal (by simpa using hspecial) hp.1 hp.2,
        Piece.pattern]

theorem read_pieces {ps : List Piece} (hps : ∀ p ∈ ps, p.Readable) {r : Reader}
    (hr : r.mode = .plain) :
    r.read (ps.flatMap Piece.expression) = some (r.addAll (ps.map Piece.pattern)) := by
  induction ps generalizing r with
  | nil => rfl
  | cons p ps ih =>
    obtain ⟨hp, hps⟩ := List.forall_mem_cons.1 hps
    rw [List.flatMap_cons, Reader.read_append (read_piece hp hr), ih hps rfl]
    simp [Reader.addAll, Reader.add, Frame.add, hr]

/-- What the expression of a glob may start with, as it is read. -/
def readFront (g : Glob) : Pattern :=
  if g.anchored then .textStart else .capture 1 (.alt .textStart (.char (.oneOf ['/'])))

/-- What lies below, as it is read. -/
def readBelow (g : Glob) : Pattern :=
  .optional (.capture (if g.anchored then 1 else 2) (.seq (.char (.oneOf ['/'])) withinLine))

/-- **The expression of a glob is well formed**, and is read part by part. -/
theorem read?_expression {g : Glob} (hg : ∀ p ∈ g.pieces, p.Readable) :
    read? g.expression =
      some (chain (g.readFront :: (g.pieces.map Piece.pattern ++ [g.readBelow, .textEnd]))) := by
  obtain ⟨anchored, pieces⟩ := g
  -- The end opens a group; its number depends on how many the front has opened.
  have hend : ∀ r : Reader, r.mode = .plain → r.read "(/.*)?$".toList = some { r with
      opened := r.opened + 1
      frame := (r.frame.add (.optional (.capture (r.opened + 1)
        (.seq (.char (.oneOf ['/'])) withinLine)))).add .textEnd } := by
    rintro ⟨mode, opened, frame, around⟩ hr
    obtain rfl : mode = .plain := hr
    rfl
  cases anchored with
  | false =>
    have hfront : ({} : Reader).read "(^|/)".toList = some {
        opened := 1
        frame := ⟨[], [.capture 1 (.alt .textStart (.char (.oneOf ['/'])))]⟩ } := rfl
    rw [read?, expression, List.append_assoc, if_neg (by simp), Reader.read_append hfront,
      Reader.read_append (read_pieces hg rfl), hend _ rfl]
    simp [Reader.finish, Reader.addAll, Frame.add, Frame.pattern, Frame.branch, anyOf, readFront,
      readBelow]
  | true =>
    have hfront : ({} : Reader).read "^".toList = some { frame := ⟨[], [.textStart]⟩ } := rfl
    rw [read?, expression, List.append_assoc, if_pos rfl, Reader.read_append hfront,
      Reader.read_append (read_pieces hg rfl), hend _ rfl]
    simp [Reader.finish, Reader.addAll, Frame.add, Frame.pattern, Frame.branch, anyOf, readFront,
      readBelow]

/-- The expression as it is read spans what the pattern of the glob spans: groups record what they
match, and nothing else. -/
theorem spans_read_iff {g : Glob} {pre w post : List Char} :
    (chain (g.readFront :: (g.pieces.map Piece.pattern ++ [g.readBelow, .textEnd]))).Spans pre w
      post ↔ g.pattern.Spans pre w post := by
  have hfront : ∀ u v, g.readFront.Spans pre u v ↔ g.front.Spans pre u v := by
    intro u v
    rw [spans_front_iff, readFront]
    cases g.anchored <;> simp [Spans, CharSet.has]
  have htail : ∀ front u, (chain [g.readBelow, .textEnd]).Spans front u post ↔
      tail.Spans front u post := by
    intro front u
    simp [readBelow, tail, chain, Spans, CharSet.has, spans_lit_iff]
  simp only [spans_chain_cons, spans_chain_append, hfront, htail, pattern, Spans]

/-! ## The meaning of the text of a glob -/

/-- The text `raw` as a glob means the path `s`. One slash at the start of `raw` and then one at
its end are left out, and the rest is read as pieces. A text that they generate stands at the start
of `s` or, if `raw` has no slash but at its end, after a slash of `s`. It is followed by nothing or
by a slash and text in the line, up to the end of `s` or a last line feed. -/
def Means (raw s : List Char) : Prop :=
  ∃ front body below last, s = front ++ (body ++ (below ++ last)) ∧
    Generates (piecesOf (dropLastSlash (dropFirstSlash raw))) body ∧
    (front = [] ∨ (¬∃ a b, raw = a ++ '/' :: b ∧ b ≠ []) ∧ ∃ names, front = names ++ ['/']) ∧
    Below below ∧ (last = [] ∨ last = ['\n'])

/-- A slash is left after one at the end is dropped iff it is followed by something. -/
theorem mem_dropLastSlash_iff {raw : List Char} :
    '/' ∈ dropLastSlash raw ↔ ∃ a b, raw = a ++ '/' :: b ∧ b ≠ [] := by
  rcases List.eq_nil_or_concat raw with rfl | ⟨init, c, rfl⟩
  · simp [dropLastSlash]
  rw [dropLastSlash, List.concat_eq_append, List.getLast?_concat, List.dropLast_concat]
  constructor
  · intro h
    split at h
    · obtain ⟨a, b, rfl⟩ := List.append_of_mem h
      exact ⟨a, b ++ [c], by simp, by simp⟩
    · rename_i hlast
      have hinit : '/' ∈ init := by
        rcases List.mem_append.1 h with h | h
        · exact h
        · exact absurd (by rw [← List.mem_singleton.1 h]; rfl) hlast
      obtain ⟨a, b, rfl⟩ := List.append_of_mem hinit
      exact ⟨a, b ++ [c], by simp, by simp⟩
  · rintro ⟨a, b, hab, hb⟩
    obtain ⟨b, d, rfl⟩ := (List.eq_nil_or_concat b).resolve_left hb
    rw [List.concat_eq_append, ← List.cons_append, ← List.append_assoc] at hab
    obtain ⟨rfl, -⟩ := List.append_inj' hab rfl
    split <;> simp

theorem describes_ofText_iff {raw s : List Char} : (ofText raw).Describes s ↔ Means raw s := by
  have hanchored : (ofText raw).anchored = false ↔ ¬∃ a b, raw = a ++ '/' :: b ∧ b ≠ [] := by
    rw [← mem_dropLastSlash_iff]; simp [ofText]
  simp only [Describes, Means, hanchored]; rfl

/-- **The regular expression of a glob means its glob.** -/
theorem emitted_meaning (raw : List Char) :
    emitted raw = (ofText raw).expression ∧ ∃ p, read? (emitted raw) = some p ∧
      ∀ s, (p.found s = true ↔ Means raw s) ∧ ((ofText raw).covers s = true ↔ Means raw s) := by
  have hemitted : emitted raw = (ofText raw).expression := by
    simp only [emitted, substituted_eq, expression, ofText]
    split <;> simp_all
  have hread := read?_expression (g := ofText raw) fun p => readable_of_mem_piecesOf p
  refine ⟨hemitted, _, hemitted ▸ hread, fun s => ⟨?_, ?_⟩⟩
  · simp only [found_iff, spans_read_iff]
    rw [← found_iff, ← describes_ofText_iff, ← covers_iff_describes]; rfl
  · rw [covers_iff_describes, describes_ofText_iff]

end Glob

end WorkspaceAudit
