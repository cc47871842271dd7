import WorkspaceAudit.Proofs.Pattern.Hits
import WorkspaceAudit.Proofs.Text.Located
import WorkspaceAudit.Suppress.Fixture

/-!
# Pragmas and the lines of a header

A pragma declares a file to be test data. It is searched for in the first lines of the file, put
together to one text, and so it may be broken between two of them: the one blank that may stand
after the word `test` in it may be a line feed.

- `Text.Spells`: a text is a word in capital or small letters.
- `Mark.IsPragma`: the texts of pragmas; `Mark.spans_fixturePragma_iff`: the pattern spans these.
- `Mark.PragmaEnd.cases`: a pragma is on one line, or is broken at one place.
- `Mark.found_fixturePragma_joinLines`: so one is found in lines put together iff it is in one of
  them, or is broken between two.
- `isFixture_iff_pragma`: which files are test data, if not by their paths.
-/

namespace WorkspaceAudit

/-- The text is the word in capital or small letters. -/
def Text.Spells (w : List Char) (s : String) : Prop := w.map Text.foldLatin = s.toList

theorem Text.Spells.not_newline {w : List Char} {s : String} (h : Text.Spells w s)
    (hs : '\n' ∉ s.toList) : '\n' ∉ w := by
  intro hmem
  apply hs
  rw [← h]
  exact List.mem_map.2 ⟨'\n', hmem, rfl⟩

namespace Mark

open Pattern Text

variable {pre w post a b : List Char} {lines : List (List Char)}

/-! ## The texts of pragmas -/

/-- The names that pragmas begin with. -/
def pragmaNames : List String := ["securedev", "nosec", "security"]

/-- The words that pragmas end with. -/
def pragmaWords : List String := ["intentional", "mock", "fixture"]

/-- The words that pragmas end with after the word `test`. -/
def pragmaKinds : List String := ["fixture", "data", "only"]

/-- What may stand between the word `test` and its kind. -/
def pragmaSign : CharSet := .union (.of "-._") .blank

/-- The start of a pragma: a name, and what follows it on the line. -/
def PragmaStart (w : List Char) : Prop :=
  ∃ name gap, w = name ++ gap ∧ (∃ s ∈ pragmaNames, Spells name s) ∧ '\n' ∉ gap

/-- The word `test` and its kind, with at most one sign between them. -/
def TestKind (w : List Char) (s : String) : Prop :=
  ∃ test sign last, w = test ++ (sign ++ last) ∧ Spells test "test" ∧
    (∀ c ∈ sign, pragmaSign.has c = true) ∧ sign.length ≤ 1 ∧ Spells last s

/-- The end of a pragma: a word, or `test` and its kind. -/
def PragmaEnd (w : List Char) : Prop :=
  (∃ s ∈ pragmaWords, Spells w s) ∨ ∃ s ∈ pragmaKinds, TestKind w s

/-- The text of a pragma. -/
def IsPragma (w : List Char) : Prop :=
  ∃ start last, w = start ++ last ∧ PragmaStart start ∧ PragmaEnd last

theorem has_inLine {c : Char} : CharSet.inLine.has c = true ↔ c ≠ '\n' := by
  simp [CharSet.inLine, CharSet.has]

theorem spans_pragmaStart_iff : (chain [words pragmaNames, withinLine]).Spans pre w post ↔
    PragmaStart w := by
  simp only [PragmaStart, spans_chain_cons, spans_chain_nil, words, spans_anyOf_iff, List.mem_map,
    withinLine, anyMany, Spans, has_inLine]
  constructor
  · rintro ⟨name, gap, rfl, ⟨_, ⟨s, hs, rfl⟩, hname⟩, gap, _, rfl, ⟨hgap, -⟩, rfl⟩
    refine ⟨name, gap, by simp, ⟨s, hs, spans_word_iff.1 hname⟩, fun hmem => hgap _ hmem rfl⟩
  · rintro ⟨name, gap, rfl, ⟨s, hs, hname⟩, hgap⟩
    refine ⟨name, gap, rfl, ⟨_, ⟨s, hs, rfl⟩, spans_word_iff.2 hname⟩, gap, [], by simp,
      ⟨?_, by simp⟩, rfl⟩
    rintro c hc rfl
    exact hgap hc

theorem spans_testKind_iff {s : String} :
    (chain [word "test", perhaps pragmaSign, word s]).Spans pre w post ↔ TestKind w s := by
  simp only [TestKind, spans_chain_cons, spans_chain_nil, spans_word_iff, perhaps, Spans,
    Option.mem_def, Option.some.injEq]
  constructor
  · rintro ⟨test, _, rfl, htest, sign, _, rfl, ⟨hsign, -, hfew⟩, last, _, rfl, hlast, rfl⟩
    exact ⟨test, sign, last, by simp, htest, hsign, hfew 1 rfl, hlast⟩
  · rintro ⟨test, sign, last, rfl, htest, hsign, hfew, hlast⟩
    refine ⟨test, _, rfl, htest, sign, last, rfl, ⟨hsign, Nat.zero_le _, ?_⟩, last, [], by simp,
      hlast, rfl⟩
    rintro _ rfl
    exact hfew

/-- The pattern of the end of a pragma, with the ends in the order in which they are tried. -/
def pragmaEnding : Pattern :=
  let test (s : String) := chain [word "test", perhaps pragmaSign, word s]
  anyOf [test "fixture", word "intentional", test "data", test "only", word "mock", word "fixture"]

theorem spans_pragmaEnding_iff : pragmaEnding.Spans pre w post ↔ PragmaEnd w := by
  simp only [pragmaEnding, spans_anyOf_iff, PragmaEnd, pragmaWords, pragmaKinds, List.mem_cons,
    List.not_mem_nil, or_false, exists_eq_or_imp, exists_eq_left, spans_testKind_iff]
  simp only [spans_word_iff, Spells]
  exact Iff.of_eq (by ac_rfl)

/-- **The pattern spans the texts of pragmas.** -/
theorem spans_fixturePragma_iff : fixturePragma.Spans pre w post ↔ IsPragma w := by
  have hpattern : fixturePragma = chain ([words pragmaNames, withinLine] ++ [pragmaEnding]) := rfl
  rw [hpattern, spans_chain_append]
  simp only [spans_pragmaStart_iff, IsPragma]
  refine exists_congr fun start => exists_congr fun last => ?_
  rw [← @spans_pragmaEnding_iff (pre ++ start) last post]
  rfl

theorem found_fixturePragma_iff : fixturePragma.found w = true ↔ ∃ v, v <:+: w ∧ IsPragma v :=
  found_iff_part fun _ _ _ => spans_fixturePragma_iff

/-! ## Pragmas and lines -/

/-- A pragma is broken between two lines: one line ends in a start and the word `test`, and the
other one begins with a kind. -/
def BreaksPragma (a b : List Char) : Prop :=
  ∃ start test last, start ++ test <:+ a ∧ last <+: b ∧ PragmaStart start ∧ Spells test "test" ∧
    ∃ s ∈ pragmaKinds, Spells last s

theorem not_newline_of_kind {s : String} (hs : s ∈ pragmaKinds) (h : Spells w s) : '\n' ∉ w := by
  have hkinds : ∀ s ∈ pragmaKinds, '\n' ∉ s.toList := by decide
  exact h.not_newline (hkinds s hs)

theorem PragmaStart.not_newline (h : PragmaStart w) : '\n' ∉ w := by
  obtain ⟨name, gap, rfl, ⟨s, hs, hname⟩, hgap⟩ := h
  have hnames : ∀ s ∈ pragmaNames, '\n' ∉ s.toList := by decide
  simp [hname.not_newline (hnames s hs), hgap]

theorem PragmaStart.ne_nil (h : PragmaStart w) : w ≠ [] := by
  obtain ⟨name, gap, rfl, ⟨s, hs, hname⟩, -⟩ := h
  have hnames : ∀ s ∈ pragmaNames, s.toList ≠ [] := by decide
  intro hnil
  obtain ⟨rfl, -⟩ := List.append_eq_nil_iff.1 hnil
  exact hnames s hs hname.symm

/-- The end of a pragma is on one line, or has a line feed between `test` and its kind. -/
theorem PragmaEnd.cases (h : PragmaEnd w) : '\n' ∉ w ∨ ∃ test last,
    w = test ++ '\n' :: last ∧ Spells test "test" ∧ ∃ s ∈ pragmaKinds, Spells last s := by
  have hwords : ∀ s ∈ pragmaWords, '\n' ∉ s.toList := by decide
  rcases h with ⟨s, hs, hw⟩ | ⟨s, hs, test, sign, last, rfl, htest, -, hfew, hlast⟩
  · exact .inl (hw.not_newline (hwords s hs))
  have htest' : '\n' ∉ test := htest.not_newline (by decide)
  have hlast' : '\n' ∉ last := not_newline_of_kind hs hlast
  by_cases hsign : '\n' ∈ sign
  · obtain ⟨c, rfl⟩ := List.length_eq_one_iff.1
      (Nat.le_antisymm hfew (List.length_pos_of_mem hsign))
    obtain rfl := List.mem_singleton.1 hsign
    exact .inr ⟨test, last, rfl, htest, s, hs, hlast⟩
  · exact .inl (by simp [htest', hsign, hlast'])

/-- Lines in which a pragma is broken have it in them if they are put together. -/
theorem BreaksPragma.isPragma (h : BreaksPragma a b) : ∃ u v, IsPragma (u ++ '\n' :: v) ∧
    '\n' ∉ u ∧ '\n' ∉ v ∧ u <:+ a ∧ v <+: b := by
  obtain ⟨start, test, last, ha, hb, hstart, htest, s, hs, hlast⟩ := h
  have htest' : '\n' ∉ test := htest.not_newline (by decide)
  refine ⟨start ++ test, last, ⟨start, test ++ (['\n'] ++ last), by simp, hstart, .inr ⟨s, hs, ?_⟩⟩,
    by simp [hstart.not_newline, htest'], not_newline_of_kind hs hlast, ha, hb⟩
  have hsign : ∀ c ∈ ['\n'], pragmaSign.has c = true := by
    simp [pragmaSign, CharSet.has, Text.isBlank]
  exact ⟨test, ['\n'], last, rfl, htest, hsign, by simp, hlast⟩

/-- **A pragma is found in lines put together** iff it is found in one of them, or is broken between
two. -/
theorem found_fixturePragma_joinLines (hlines : ∀ line ∈ lines, '\n' ∉ line) :
    fixturePragma.found (joinLines lines) = true ↔
      (∃ line ∈ lines, fixturePragma.found line = true) ∨
        ∃ a b, [a, b] <:+: lines ∧ BreaksPragma a b := by
  have hne {w : List Char} (h : IsPragma w) : w ≠ [] := by
    obtain ⟨start, last, rfl, hstart, -⟩ := h
    simp [hstart.ne_nil]
  simp only [found_fixturePragma_iff]
  constructor
  · rintro ⟨w, hw, hpragma⟩
    obtain ⟨start, last, rfl, hstart, hlast⟩ := id hpragma
    -- A pragma has at most one newline in it, after the word `test`.
    rcases hlast.cases with hline | ⟨test, last, rfl, htest, s, hs, hkind⟩
    · have hline : '\n' ∉ start ++ last := by simp [hstart.not_newline, hline]
      obtain ⟨line, hmem, hpart⟩ := (infix_joinLines_iff (hne hpragma) hline).1 hw
      exact .inl ⟨line, hmem, _, hpart, hpragma⟩
    · have htest' : '\n' ∉ test := htest.not_newline (by decide)
      rw [← List.append_assoc, infix_joinLines_newline_iff (by simp [hstart.not_newline, htest'])
        (not_newline_of_kind hs hkind) hlines] at hw
      obtain ⟨a, b, hadjacent, ha, hb⟩ := hw
      exact .inr ⟨a, b, hadjacent, start, test, last, ha, hb, hstart, htest, s, hs, hkind⟩
  · rintro (⟨line, hmem, w, hpart, hpragma⟩ | ⟨a, b, hadjacent, hbreaks⟩)
    · have hline : '\n' ∉ w := fun hw => hlines line hmem (hpart.subset hw)
      exact ⟨w, (infix_joinLines_iff (hne hpragma) hline).2 ⟨line, hmem, hpart⟩, hpragma⟩
    · obtain ⟨u, v, hpragma, hu, hv, ha, hb⟩ := hbreaks.isPragma
      exact ⟨_, (infix_joinLines_newline_iff hu hv hlines).2 ⟨a, b, hadjacent, ha, hb⟩, hpragma⟩

end Mark

/-- The first lines of a text, in which a pragma is searched for. -/
def headerLines (content : List Char) : List (List Char) :=
  (Text.splitLines content).take pragmaLines

/-- **A file whose path does not tell it is test data by a pragma in its first five lines.** One of
these lines has it, or it is broken between two of them. So a file whose first lines break no pragma
is test data iff one of them has a pragma in it, and what stands after the fifth line makes no
difference. -/
theorem isFixture_iff_pragma {path : String} {content : List Char}
    (hfolder : inFixtureFolder path = false) (hname : hasFixtureName path = false) :
    (isFixture path content = true ↔
      (∃ line ∈ headerLines content, Mark.fixturePragma.found line = true) ∨
        ∃ a b, [a, b] <:+: headerLines content ∧ Mark.BreaksPragma a b) ∧
    ((∀ a b, [a, b] <:+: headerLines content → ¬Mark.BreaksPragma a b) →
      (isFixture path content = true ↔
        ∃ line ∈ headerLines content, Mark.fixturePragma.found line = true)) ∧
    ∀ other, headerLines other = headerLines content →
      isFixture path other = isFixture path content := by
  have hfixture (text : List Char) : isFixture path text =
      Mark.fixturePragma.found (Text.joinLines (headerLines text)) := by
    rw [isFixture, hfolder, hname, Bool.false_or, Bool.false_or, hasFixturePragma, header,
      headerLines]
  have hlines : ∀ line ∈ headerLines content, '\n' ∉ line := fun line hline =>
    Text.not_mem_of_mem_splitOn (List.mem_of_mem_take hline)
  have hfound := Mark.found_fixturePragma_joinLines hlines
  rw [← hfixture] at hfound
  refine ⟨hfound, fun hwhole => hfound.trans (or_iff_left ?_), fun other hother => ?_⟩
  · rintro ⟨a, b, hadjacent, hbreaks⟩
    exact hwhole a b hadjacent hbreaks
  · rw [hfixture, hfixture, hother]

theorem isFixture_brokenPragma :
    inFixtureFolder "a.py" = false ∧ hasFixtureName "a.py" = false ∧
      ∃ a b, [a, b] <:+: headerLines "# nosec: test\nDATA".toList ∧ Mark.BreaksPragma a b := by
  have hfolder : inFixtureFolder "a.py" = false := by decide +kernel
  have hname : hasFixtureName "a.py" = false := by decide +kernel
  have hfixture : isFixture "a.py" "# nosec: test\nDATA".toList = true := by decide +kernel
  have hlines : ¬∃ line ∈ headerLines "# nosec: test\nDATA".toList,
      Mark.fixturePragma.found line = true := by decide +kernel
  exact ⟨hfolder, hname, ((isFixture_iff_pragma hfolder hname).1.1 hfixture).resolve_left hlines⟩

/-- **A pragma that is broken between two lines** makes a file test data, though none of its lines
is a pragma. -/
theorem isFixture_without_pragma :
    inFixtureFolder "src/keys.py" = false ∧ hasFixtureName "src/keys.py" = false ∧
      (∀ line ∈ Text.splitLines "# security test\nfixture = load()".toList,
        Mark.fixturePragma.found line = false) ∧
      isFixture "src/keys.py" "# security test\nfixture = load()".toList = true := by
  decide +kernel

end WorkspaceAudit
