import Mathlib.Data.List.Nodup
import Mathlib.Data.List.TakeWhile
import WorkspaceAudit.Proofs.Pattern.Checks
import WorkspaceAudit.Proofs.Scan.Firing
import WorkspaceAudit.Proofs.Scan.Pragmas

/-!
# Secrets that are assigned

The rule for assigned secrets takes a colon for an equals sign, but the stages do not: in `secret:`
the name of the secret is itself a word for tests in front of a sign.

- `Rule.eq_of_spans_assignment`: the rule matches exactly one text in an assignment.
- `Mark.Unmarked`: the marks of which none is found in a value. Quotes around the value neither add
  one nor take one away: `Mark.found_testWord_quoted`, `Mark.found_repeatedChar_quoted`.
- `RuleSet.reportsAs_title_iff`: when a rule for secrets reports something under its title.
- `RuleSet.not_reportsAs_colon`: a colon right behind the name hides the secret.
- `RuleSet.Clear.reportsAs_iff`: other signs hide it only if its value is marked.
-/

namespace WorkspaceAudit

open Pattern

/-! ## Characters that split a text -/

section Splits

variable {f : Char → Bool} {a b a' b' : List Char} {x y : Char}

/-- There is one way to split a text at the first character of a kind. -/
theorem first_unique (h : a ++ x :: b = a' ++ y :: b') (ha : ∀ c ∈ a, f c = false)
    (ha' : ∀ c ∈ a', f c = false) (hx : f x = true) (hy : f y = true) :
    a = a' ∧ x = y ∧ b = b' := by
  rcases List.append_eq_append_iff.1 h with ⟨m, rfl, hm⟩ | ⟨m, rfl, hm⟩
  all_goals
    cases m with
    | nil => simp_all
    | cons c m =>
      obtain ⟨rfl, -⟩ := List.cons.inj hm
      simp_all

/-- There is one way to split a text in front of the characters of a kind at its end. -/
theorem trailing_unique (h : a ++ b = a' ++ b') (ha : ∀ c ∈ a.getLast?, f c = false)
    (ha' : ∀ c ∈ a'.getLast?, f c = false) (hb : ∀ c ∈ b, f c = true)
    (hb' : ∀ c ∈ b', f c = true) : a = a' ∧ b = b' := by
  rcases List.append_eq_append_iff.1 h with ⟨m, rfl, hm⟩ | ⟨m, rfl, hm⟩
  all_goals
    rcases List.eq_nil_or_concat m with rfl | ⟨m, c, rfl⟩
    · simp_all
    · simp_all

theorem countP_eq_zero_iff : a.countP f = 0 ↔ ∀ c ∈ a, f c = false := by
  simp [List.countP_eq_zero]

/-- The one character of a kind is the same wherever it is looked for. -/
theorem only_unique (h : a ++ x :: b = a' ++ y :: b') (ha' : ∀ c ∈ a', f c = false)
    (hb' : ∀ c ∈ b', f c = false) (hx : f x = true) (hy : f y = true) :
    a = a' ∧ x = y ∧ b = b' := by
  have hcount := congrArg (List.countP f) h
  rw [← countP_eq_zero_iff] at ha' hb'
  simp only [List.countP_append, List.countP_cons, ha', hb', hx, hy, if_true] at hcount
  exact first_unique h (countP_eq_zero_iff.1 (by omega)) (countP_eq_zero_iff.1 ha') hx hy

/-- The same for two characters of a kind, the second of which is the last one of the text. -/
theorem pair_unique {m m' : List Char} {z : Char}
    (h : a ++ x :: (m ++ y :: b) = a' ++ z :: (m' ++ [z])) (ha' : ∀ c ∈ a', f c = false)
    (hm : ∀ c ∈ m, f c = false) (hm' : ∀ c ∈ m', f c = false) (hx : f x = true)
    (hy : f y = true) (hz : f z = true) : a = a' ∧ x = z ∧ m = m' ∧ y = z ∧ b = [] := by
  have hcount := congrArg (List.countP f) h
  have ha'' := countP_eq_zero_iff.2 ha'
  have hm'' := countP_eq_zero_iff.2 hm'
  simp only [List.countP_append, List.countP_cons, List.countP_nil, ha'', hm'', hx, hy, hz,
    if_true] at hcount
  obtain ⟨rfl, rfl, hrest⟩ := first_unique h (countP_eq_zero_iff.1 (by omega)) ha' hx hz
  obtain ⟨rfl, rfl, rfl⟩ := first_unique hrest hm hm' hy hz
  exact ⟨rfl, rfl, rfl, rfl, rfl⟩

end Splits

theorem Text.foldLatin_of_isBlank {c : Char} (h : isBlank c = true) : foldLatin c = c := by
  simp only [isBlank, Bool.or_eq_true, Bool.and_eq_true, decide_eq_true_eq, beq_iff_eq] at h
  have hcapital : ¬(65 ≤ c.val ∧ c.val ≤ 90) := by
    rw [UInt32.le_iff_toNat_le, UInt32.le_iff_toNat_le]
    change ¬(65 ≤ c.toNat ∧ c.toNat ≤ 90)
    omega
  have hspecial : c.toNat ≠ 0x130 ∧ c.toNat ≠ 0x131 ∧ c.toNat ≠ 0x17f ∧ c.toNat ≠ 0x212a := by
    omega
  have hlower : c.toLower = c := by
    unfold Char.toLower
    exact dif_neg hcapital
  simp [foldLatin, hspecial, hlower]

/-- A word has no characters of a kind that case does not matter for, if it is spelled without
them. -/
theorem Text.Spells.forall_false {f : Char → Bool} {w : List Char} {s : String}
    (h : Text.Spells w s) (hf : ∀ c, f c = true → Text.foldLatin c = c)
    (hs : s.toList.any f = false) : ∀ c ∈ w, f c = false := by
  intro c hc
  by_contra htrue
  rw [Bool.not_eq_false] at htrue
  have hmem : Text.foldLatin c ∈ s.toList := h ▸ List.mem_map_of_mem hc
  rw [hf c htrue] at hmem
  exact List.any_eq_false.1 hs c hmem htrue

/-! ## Matches -/

namespace Rule

/-- The characters of the values that are taken for secrets. -/
def Secret.valueChar : CharSet := keyCharOr "-_.+/="

/-- The rule for secrets that are assigned. -/
def assignedSecret : Rule :=
  Secret.mk "Hardcoded secret assignment"
    (chain [word "secret", Secret.between (.of ":="), .char Secret.quote,
      atLeast 10 Secret.valueChar, .char Secret.quote]) .high

theorem assignedSecret_mem : assignedSecret ∈ secrets := by decide +kernel

/-- Nothing but blanks. -/
def IsGap (gap : List Char) : Prop := ∀ c ∈ gap, Text.isBlank c = true

theorem IsGap.contains_eq_false {gap : List Char} {s : String} (h : IsGap gap)
    (hs : s.toList.any Text.isBlank = false) : ∀ c ∈ gap, s.toList.contains c = false := by
  intro c hc
  rw [← Bool.not_eq_true, List.contains_iff_mem]
  exact fun hmem => List.any_eq_false.1 hs c hmem (h c hc)

/-- What stands between the name of a secret and its value: a sign between blanks. -/
structure IsSigns (signs gap : List Char) (sign : Char) (gap' : List Char) : Prop where
  eq : signs = gap ++ sign :: gap'
  gap : IsGap gap
  sign : sign ∈ ":=".toList
  gap' : IsGap gap'

/-- The texts that the rule matches. -/
theorem spans_assignedSecret_iff {pre w post : List Char} :
    assignedSecret.pattern.Spans pre w post ↔ ∃ name signs gap sign gap' opening value closing,
      w = name ++ (signs ++ opening :: (value ++ [closing])) ∧ Text.Spells name "secret" ∧
      IsSigns signs gap sign gap' ∧ Secret.quote.has opening = true ∧
      (∀ c ∈ value, Secret.valueChar.has c = true) ∧ 10 ≤ value.length ∧
      Secret.quote.has closing = true := by
  simp only [assignedSecret, Secret.mk, Secret.between, spans_chain_cons, spans_chain_nil,
    spans_word_iff, blanks, anyMany, atLeast, Spans]
  constructor
  · rintro ⟨name, _, rfl, hname, _, _, rfl, ⟨gap, _, rfl, ⟨hgap, -⟩, _, _, rfl, ⟨sign, hsign, rfl⟩,
      gap', _, rfl, ⟨hgap', -⟩, rfl⟩, _, _, rfl, ⟨opening, hopening, rfl⟩, value, _, rfl,
      ⟨hvalue, hlength, -⟩, _, _, rfl, ⟨closing, hclosing, rfl⟩, rfl⟩
    refine ⟨name, gap ++ sign :: gap', gap, sign, gap', opening, value, closing, by simp, hname,
      ⟨rfl, hgap, ?_, hgap'⟩, hopening, hvalue, hlength, hclosing⟩
    exact List.contains_iff_mem.1 hsign
  · rintro ⟨name, _, gap, sign, gap', opening, value, closing, rfl, hname,
      ⟨rfl, hgap, hsign, hgap'⟩, hopening, hvalue, hlength, hclosing⟩
    refine ⟨name, _, rfl, hname, gap ++ sign :: gap', _, rfl, ⟨gap, sign :: gap', rfl,
      ⟨hgap, by simp⟩, [sign], gap', rfl, ⟨sign, List.contains_iff_mem.2 hsign, rfl⟩, gap', [],
      by simp, ⟨hgap', by simp⟩, rfl⟩, [opening], _, rfl, ⟨opening, hopening, rfl⟩, value,
      [closing], rfl, ⟨hvalue, hlength, by simp⟩, [closing], [], by simp,
      ⟨closing, hclosing, rfl⟩, rfl⟩

/-- A text that assigns a value in quotes. -/
def assignment (signs v : List Char) : List Char :=
  "clientSecret".toList ++ (signs ++ '\'' :: (v ++ ['\'']))

/-- What the rule matches of it. -/
def assigned (signs v : List Char) : List Char :=
  "Secret".toList ++ (signs ++ '\'' :: (v ++ ['\'']))

section Matches

variable {pre w post v signs gap gap' : List Char} {sign : Char}

theorem assignment_eq : assignment signs v =
    ("clientSecret".toList ++ signs) ++ '\'' :: (v ++ ['\'']) :=
  (List.append_assoc ..).symm

theorem assigned_eq :
    assigned signs v = ("Secret".toList ++ signs) ++ '\'' :: (v ++ ['\'']) :=
  (List.append_assoc ..).symm

theorem spells_secret : Text.Spells "Secret".toList "secret" := by
  unfold Text.Spells
  decide

theorem clientSecret_eq : "clientSecret".toList = "client".toList ++ "Secret".toList := rfl

theorem assignment_eq_append : assignment signs v = "client".toList ++ assigned signs v :=
  (congrArg (· ++ (signs ++ '\'' :: (v ++ ['\'']))) clientSecret_eq).trans (List.append_assoc ..)

theorem assignment_ne_nil : assignment signs v ≠ [] := by
  rw [assignment_eq]
  exact List.append_ne_nil_of_right_ne_nil _ (List.cons_ne_nil _ _)

/-- Signs that no value has in it. -/
def foreignSigns : List Char := "\"':\n<$\x7b".toList

theorem not_value {c : Char} (h : Secret.valueChar.has c = true) : c ∉ foreignSigns := by
  have hnone : foreignSigns.any Secret.valueChar.has = false := by decide
  exact fun hmem => List.any_eq_false.1 hnone c hmem h

theorem quote_eq_false_of_value {c : Char} (h : Secret.valueChar.has c = true) :
    Secret.quote.has c = false := by
  have hsplit : foreignSigns = "\"'".toList ++ ":\n<$\x7b".toList := rfl
  rw [← Bool.not_eq_true]
  intro hquote
  exact not_value h (hsplit ▸ List.mem_append_left _ (List.contains_iff_mem.1 hquote))

theorem IsSigns.quote_eq_false (h : IsSigns signs gap sign gap') :
    ∀ c ∈ signs, Secret.quote.has c = false := by
  have hnone : ":=".toList.any Secret.quote.has = false := by decide
  obtain ⟨rfl, hgap₁, hsign, hgap₂⟩ := h
  have hsign : Secret.quote.has sign = false :=
    Bool.eq_false_iff.2 (List.any_eq_false.1 hnone sign hsign)
  exact List.forall_mem_append.2 ⟨hgap₁.contains_eq_false (by decide), List.forall_mem_cons.2
    ⟨hsign, hgap₂.contains_eq_false (by decide)⟩⟩

theorem clientSecret_plain {c : Char} (hc : c ∈ "clientSecret".toList) :
    Secret.quote.has c = false ∧ ":=".toList.contains c = false ∧ Text.isBlank c = false := by
  have hnone : "clientSecret".toList.any (fun c =>
      Secret.quote.has c || (":=".toList.contains c || Text.isBlank c)) = false := by decide +kernel
  simpa using List.any_eq_false.1 hnone c hc

/-- There is one way to find the name and the signs in front of a value. -/
theorem name_unique {name signs' gap₁ gap₁' : List Char} {sign₁ : Char}
    (h : pre ++ (name ++ signs') = "clientSecret".toList ++ signs)
    (hname : Text.Spells name "secret") (hsigns' : IsSigns signs' gap₁ sign₁ gap₁')
    (hsigns : IsSigns signs gap sign gap') :
    pre = "client".toList ∧ name = "Secret".toList ∧ signs' = signs := by
  obtain ⟨rfl, hgap, hsign, hgap'⟩ := hsigns
  obtain ⟨rfl, hgap₁, hsign₁, hgap₁'⟩ := hsigns'
  rw [← List.append_assoc "clientSecret".toList, show pre ++ (name ++ (gap₁ ++ sign₁ :: gap₁')) =
    ((pre ++ name) ++ gap₁) ++ sign₁ :: gap₁' by simp] at h
  have hfront : ∀ c ∈ "clientSecret".toList ++ gap, ":=".toList.contains c = false :=
    List.forall_mem_append.2
      ⟨fun c hc => (clientSecret_plain hc).2.1, hgap.contains_eq_false (by decide)⟩
  obtain ⟨hnames, rfl, rfl⟩ := only_unique h hfront (hgap'.contains_eq_false (by decide))
    (List.contains_iff_mem.2 hsign₁) (List.contains_iff_mem.2 hsign)
  -- No blank is in the name, so the blanks in front of the sign are the same.
  have hblank : ∀ c ∈ name, Text.isBlank c = false :=
    hname.forall_false (fun _ => Text.foldLatin_of_isBlank) (by decide)
  have hlength : name.length = "Secret".toList.length := by
    simpa using congrArg List.length hname
  have hne : name ≠ [] := List.ne_nil_of_length_pos (by simp [hlength])
  have hlast : ∀ c ∈ (pre ++ name).getLast?, Text.isBlank c = false := by
    intro c hc
    rw [List.getLast?_append_of_ne_nil _ hne] at hc
    exact hblank c (List.mem_of_getLast? hc)
  obtain ⟨hkeys, rfl⟩ := trailing_unique hnames hlast
    (fun c hc => (clientSecret_plain (List.mem_of_getLast? hc)).2.2) hgap₁ hgap
  obtain ⟨rfl, rfl⟩ := List.append_inj' (hkeys.trans clientSecret_eq) hlength
  exact ⟨rfl, rfl, rfl⟩

/-- **The rule matches one text in an assignment**: all of it behind the first six characters. -/
theorem eq_of_spans_assignment (hsigns : IsSigns signs gap sign gap')
    (hv : ∀ c ∈ v, Secret.valueChar.has c = true)
    (htext : pre ++ (w ++ post) = assignment signs v)
    (hspans : assignedSecret.pattern.Spans pre w post) :
    pre = "client".toList ∧ w = assigned signs v ∧ post = [] := by
  obtain ⟨name, signs', gap₁, sign₁, gap₁', opening, value, closing, rfl, hname, hsigns', hopening,
    hvalue, -, hclosing⟩ := spans_assignedSecret_iff.1 hspans
  -- The two quotes of the match are those of the line.
  rw [assignment_eq, show pre ++ (name ++ (signs' ++ opening :: (value ++ [closing])) ++ post) =
    (pre ++ (name ++ signs')) ++ opening :: (value ++ closing :: post) by simp] at htext
  obtain ⟨hfront, rfl, rfl, rfl, rfl⟩ := pair_unique htext
    (List.forall_mem_append.2
      ⟨fun c hc => (clientSecret_plain hc).1, hsigns.quote_eq_false⟩)
    (fun c hc => quote_eq_false_of_value (hvalue c hc))
    (fun c hc => quote_eq_false_of_value (hv c hc)) hopening hclosing (by decide)
  obtain ⟨rfl, rfl, rfl⟩ := name_unique hfront hname hsigns' hsigns
  exact ⟨rfl, rfl, rfl⟩

theorem spans_assignment (hsigns : IsSigns signs gap sign gap')
    (hv : ∀ c ∈ v, Secret.valueChar.has c = true) (hlength : 10 ≤ v.length) :
    assignedSecret.pattern.Spans "client".toList (assigned signs v) [] :=
  spans_assignedSecret_iff.2 ⟨"Secret".toList, signs, gap, sign, gap', '\'', v, '\'', rfl,
    spells_secret, hsigns, by decide, hv, hlength, by decide⟩

end Matches

end Rule

/-! ## Marks in a value -/

namespace Mark

variable {pre w post front v : List Char}

/-- The signs between which a word marks a value as one for tests. -/
def testSign : CharSet := .of "-_:/\"'"

theorem spans_testWord_iff : testWord.Spans pre w post ↔ ∃ opening word closing,
    w = opening ++ (word ++ closing) ∧
    (opening = [] ∧ pre = [] ∨ ∃ c, testSign.has c = true ∧ opening = [c]) ∧
    (∃ s ∈ testWords, Text.Spells word s) ∧
    ((∃ c, testSign.has c = true ∧ closing = [c]) ∨
      closing = [] ∧ (post = [] ∨ post = ['\n'])) := by
  have hwords {pre word post : List Char} : (words testWords).Spans pre word post ↔
      ∃ s ∈ testWords, Text.Spells word s := by
    simp [words, spans_anyOf_iff, spans_word_iff, Text.Spells]
  have hpattern : testWord = chain [.alt .textStart (.char testSign), words testWords,
    .alt (.char testSign) .textEnd] := rfl
  simp only [hpattern, spans_chain_cons, spans_chain_nil, hwords, Spans]
  constructor
  · rintro ⟨opening, _, rfl, hopening, word, _, rfl, hword, closing, _, rfl, hclosing, rfl⟩
    exact ⟨opening, word, closing, by simp, hopening, hword, hclosing⟩
  · rintro ⟨opening, word, closing, rfl, hopening, hword, hclosing⟩
    exact ⟨opening, _, rfl, hopening, word, closing, rfl, hword, closing, [], by simp, hclosing,
      rfl⟩

theorem quote_not_mem_testWord (hword : ∃ s ∈ testWords, Text.Spells w s) : '\'' ∉ w := by
  have hwords : ∀ s ∈ testWords, Text.foldLatin '\'' ∉ s.toList := by decide
  obtain ⟨s, hs, hw⟩ := hword
  intro hmem
  exact hwords s hs (hw ▸ List.mem_map_of_mem hmem)

theorem testWord_ne_nil (hword : ∃ s ∈ testWords, Text.Spells w s) : w ≠ [] := by
  have hwords : ∀ s ∈ testWords, s.toList ≠ [] := by decide
  obtain ⟨s, hs, hw⟩ := hword
  rintro rfl
  exact hwords s hs hw.symm

/-- A word for tests in a text, with what stands before and after it. -/
theorem found_testWord_of {a b : List Char} (ha : ∀ c ∈ a.getLast?, testSign.has c = true)
    (hword : ∃ s ∈ testWords, Text.Spells w s) (hb : ∀ c ∈ b.head?, testSign.has c = true) :
    testWord.found (a ++ (w ++ b)) = true := by
  rw [found_iff]
  obtain ⟨pre, opening, rfl, hopening⟩ : ∃ pre opening, a = pre ++ opening ∧
      (opening = [] ∧ pre = [] ∨ ∃ c, testSign.has c = true ∧ opening = [c]) := by
    rcases List.eq_nil_or_concat a with rfl | ⟨pre, c, rfl⟩
    · exact ⟨[], [], rfl, .inl ⟨rfl, rfl⟩⟩
    · exact ⟨pre, [c], List.concat_eq_append .., .inr ⟨c, ha c (by simp), rfl⟩⟩
  obtain ⟨closing, post, rfl, hclosing⟩ : ∃ closing post, b = closing ++ post ∧
      ((∃ c, testSign.has c = true ∧ closing = [c]) ∨
        closing = [] ∧ (post = [] ∨ post = ['\n'])) := by
    cases b with
    | nil => exact ⟨[], [], rfl, .inr ⟨rfl, .inl rfl⟩⟩
    | cons c post => exact ⟨[c], post, rfl, .inl ⟨c, hb c rfl, rfl⟩⟩
  exact ⟨pre, opening ++ (w ++ closing), post, by simp,
    spans_testWord_iff.2 ⟨opening, w, closing, rfl, hopening, hword, hclosing⟩⟩

/-- What stands behind a word for tests begins with a sign, also without the quote at its end. -/
theorem head?_of_closing {b closing : List Char}
    (hclosing : (∃ c, testSign.has c = true ∧ closing = [c]) ∨
      closing = [] ∧ (post = [] ∨ post = ['\n']))
    (hb : closing ++ post = b ++ ['\'']) : ∀ c ∈ b.head?, testSign.has c = true := by
  intro e he
  cases b with
  | nil => cases he
  | cons x b =>
    rcases hclosing with ⟨c, hc, rfl⟩ | ⟨rfl, rfl | rfl⟩
    · obtain rfl := Option.some.inj he
      rwa [(List.cons.inj hb).1] at hc
    · cases hb
    · simp at hb

/-- **Quotes are signs**: so a word for tests is found in a text that ends in quotes iff it is found
in what they enclose. -/
theorem found_testWord_quoted (hskips : testWord.Skips front) (hfront : front ≠ [])
    (hv : '\n' ∉ v) :
    testWord.found (front ++ '\'' :: (v ++ ['\''])) = testWord.found v := by
  have hq : testSign.has '\'' = true := by decide
  rw [Bool.eq_iff_iff]
  constructor
  · intro hfound
    obtain ⟨u, w, post, htext, hspans⟩ := hskips.found_iff.1 hfound
    obtain ⟨opening, word, closing, rfl, hopening, hword, hclosing⟩ := spans_testWord_iff.1 hspans
    obtain ⟨c, hc, rfl⟩ := hopening.resolve_left (by simp [hfront])
    have hmem := quote_not_mem_testWord hword
    -- The text in the quotes begins behind the opening sign, which may be the first quote.
    obtain ⟨a, ha, hrest⟩ : ∃ a, (∀ c ∈ a.getLast?, testSign.has c = true) ∧
        v ++ ['\''] = a ++ (word ++ (closing ++ post)) := by
      cases u with
      | nil => exact ⟨[], by simp, by simpa using (List.cons.inj htext).2⟩
      | cons d u =>
        refine ⟨u ++ [c], by simpa using hc, ?_⟩
        simpa using (List.cons.inj htext).2
    -- It ends in front of the closing sign, which may be the last quote.
    rcases List.eq_nil_or_concat (closing ++ post) with hnil | ⟨b, d, hb⟩
    · have hlast := congrArg List.getLast? hrest
      rw [hnil, List.append_nil, List.getLast?_concat,
        List.getLast?_append_of_ne_nil _ (testWord_ne_nil hword)] at hlast
      exact absurd (List.mem_of_getLast? hlast.symm) hmem
    · rw [List.concat_eq_append] at hb
      rw [hb, ← List.append_assoc, ← List.append_assoc] at hrest
      obtain ⟨rfl, hd⟩ := List.append_inj' hrest rfl
      obtain rfl := List.singleton_inj.1 hd
      rw [List.append_assoc]
      exact found_testWord_of ha hword (head?_of_closing hclosing hb)
  · intro hfound
    obtain ⟨pre, w, post, rfl, hspans⟩ := found_iff.1 hfound
    obtain ⟨opening, word, closing, rfl, hopening, hword, hclosing⟩ := spans_testWord_iff.1 hspans
    have ha : ∀ c ∈ (front ++ '\'' :: (pre ++ opening)).getLast?, testSign.has c = true := by
      rcases hopening with ⟨rfl, rfl⟩ | ⟨c, hc, rfl⟩
      · simp [hq]
      · rw [show front ++ '\'' :: (pre ++ [c]) = (front ++ '\'' :: pre) ++ [c] by simp,
          List.getLast?_concat]
        exact fun _ hd => Option.some.inj hd ▸ hc
    have hb : ∀ c ∈ (closing ++ (post ++ ['\''])).head?, testSign.has c = true := by
      rcases hclosing with ⟨c, hc, rfl⟩ | ⟨rfl, rfl | rfl⟩
      · simpa using hc
      · simp [hq]
      · simp at hv
    simpa using found_testWord_of ha hword hb

theorem found_repeatedChar_iff : repeatedChar.found w = true ↔
    ∃ c, c ≠ '\n' ∧ List.replicate 8 c <:+: w := by
  have hspans (pre w post : List Char) : repeatedChar.Spans pre w post ↔
      ∃ c n, CharSet.inLine.has c = true ∧ 7 ≤ n ∧ w = List.replicate (n + 1) c := Iff.rfl
  rw [found_iff_part hspans]
  constructor
  · rintro ⟨_, hw, c, n, hc, hn, rfl⟩
    have hpart : List.replicate 8 c <:+: List.replicate (n + 1) c :=
      ⟨[], List.replicate (n - 7) c, by
        rw [List.nil_append, List.replicate_append_replicate]
        congr 1
        omega⟩
    exact ⟨c, has_inLine.1 hc, hpart.trans hw⟩
  · rintro ⟨c, hc, hw⟩
    exact ⟨_, hw, c, 7, has_inLine.2 hc, Nat.le_refl 7, rfl⟩

/-- A part of a text that has no quote in it is on one side of the quote. -/
theorem infix_of_append_cons {q : Char} {a b : List Char} (h : w <:+: a ++ q :: b) (hq : q ∉ w) :
    w <:+: a ∨ w <:+: b := by
  obtain ⟨s, t, h⟩ := h
  rcases List.append_eq_append_iff.1 h with ⟨m, rfl, -⟩ | ⟨m, hm, hrest⟩
  · exact .inl ⟨s, m, rfl⟩
  cases m with
  | nil => exact .inl ⟨s, [], by simpa using hm⟩
  | cons x m =>
    obtain ⟨rfl, rfl⟩ := List.cons.inj hrest
    rcases List.append_eq_append_iff.1 hm with ⟨n, -, rfl⟩ | ⟨n, -, hn⟩
    · simp at hq
    · cases n with
      | nil =>
        obtain rfl : _ = w := hn
        simp at hq
      | cons y n =>
        obtain ⟨-, rfl⟩ := List.cons.inj hn
        exact .inr ⟨n, t, rfl⟩

/-- Quotes add no run of a character to those in the text, unless one is in front of it. -/
theorem found_repeatedChar_quoted (hfront : ∀ c ∈ front, front.count c < 8) (hv : '\'' ∉ v)
    (hquote : '\'' ∉ front) :
    repeatedChar.found (front ++ '\'' :: (v ++ ['\''])) = repeatedChar.found v := by
  rw [Bool.eq_iff_iff, found_repeatedChar_iff, found_repeatedChar_iff]
  constructor
  · rintro ⟨c, hc, hw⟩
    have hcount := (hw.sublist).count_le c
    rw [List.count_replicate_self] at hcount
    have hne : '\'' ≠ c := by
      rintro rfl
      simp [List.count_eq_zero.2 hv, List.count_eq_zero.2 hquote] at hcount
    have hmem : '\'' ∉ List.replicate 8 c := by simpa using hne
    refine ⟨c, hc, ?_⟩
    -- The row of eight cannot reach over a quote, and before the first one no character is there
    -- eight times.
    rcases infix_of_append_cons hw hmem with hw | hw
    · have hcount := hw.sublist.count_le c
      rw [List.count_replicate_self] at hcount
      have hfew := hfront c (hw.subset (by simp))
      omega
    · rcases infix_of_append_cons hw hmem with hw | hw
      · exact hw
      · cases List.eq_nil_of_infix_nil hw
  · rintro ⟨c, hc, hw⟩
    exact ⟨c, hc, hw.trans ⟨front ++ ['\''], ['\''], by simp⟩⟩

/-- The ending of an example stands at the end of a text, and not in front of a quote there. -/
theorem found_placeholderEnding_quoted :
    placeholderEnding.found (front ++ '\'' :: (v ++ ['\''])) = false := by
  rw [Bool.eq_false_iff, ne_eq, found_iff]
  rintro ⟨pre, w, post, htext, hspans⟩
  obtain ⟨u, _, rfl, hu, rfl, hpost⟩ :=
    (@spans_chain_append pre w post [_, _] [.textEnd]).1 hspans
  obtain ⟨u, c, rfl, hc⟩ := exists_last_of_endsWithout (q := '\'') (by decide) hu
  have hlast := congrArg List.getLast? htext
  rw [← List.cons_append, ← List.append_assoc, List.getLast?_concat] at hlast
  rcases hpost with rfl | rfl
  · simp at hlast
    exact hc hlast.symm
  · simp at hlast

theorem within_optOut : optOut.Within '\'' :=
  @within_of_wordEdge _ [_, _, _] (by decide) (by decide) (by decide)

theorem within_fixturePragma : fixturePragma.Within '\'' :=
  within_of_isPlain (by decide) (by decide)

theorem within_placeholderLine : placeholderLine.Within '\'' :=
  within_of_isPlain (by decide) (by decide)

theorem within_placeholderWord : placeholderWord.Within '\'' :=
  within_of_isPlain (by decide) (by decide)

/-- What leaves a value a secret: no opt-out or pragma is found in it, no word for examples or
tests, and no character eight times in a row. -/
structure Unmarked (v : List Char) : Prop where
  optOut : optOut.found v = false
  pragma : fixturePragma.found v = false
  line : placeholderLine.found v = false
  word : placeholderWord.found v = false
  test : testWord.found v = false
  run : repeatedChar.found v = false

end Mark

/-! ## Findings -/

namespace RuleSet

variable {path : String} {content : List Char} {rule : Rule}

/-- The rule set reports something under the title. -/
def ReportsAs (set : RuleSet) (path : String) (content : List Char) (title : String) : Prop :=
  ∃ f ∈ set.scanContent path content, f.title = title

/-- Rules for secrets have names of their own. -/
theorem eq_of_name {other : Rule} (hrule : rule ∈ secrets.rules) (hother : other ∈ secrets.rules)
    (h : other.name = rule.name) : other = rule := by
  have hnodup : (secrets.rules.map Rule.name).Nodup := by decide +kernel
  exact List.inj_on_of_nodup_map hnodup hother hrule h

/-- **A rule for secrets reports something under its title** iff the text is no test data and one of
its matches is not dropped. -/
theorem reportsAs_title_iff (hrule : rule ∈ secrets.rulesFor path)
    (hspares : rule.sparesLoopback = false) (hcontent : content ≠ []) :
    secrets.ReportsAs path content rule.title ↔ isFixture path content = false ∧
      ∃ hit ∈ rule.pattern.findAll content, (secrets.judged path content rule hit).2 ≠ .drop := by
  have hmem : rule ∈ secrets.rules := (List.mem_filter.1 hrule).1
  constructor
  · rintro ⟨f, hf, htitle⟩
    have hfixture : isFixture path content = false := by
      rw [← Bool.not_eq_true]
      intro hfixture
      obtain ⟨other, -, hit, -, -, rfl⟩ := exists_hit_of_mem_scanContent hf
      rw [report, if_pos hfixture] at htitle
      -- In a fixture every title would begin with a bracket, and no title of a rule does.
      have hhead : ∀ rule ∈ secrets.rules, rule.title.toList.head? ≠ some '[' := by decide +kernel
      refine hhead rule hmem ?_
      rw [← htitle]
      simp [Finding.asFixture]
    obtain ⟨other, hother, hname, hhit⟩ := exists_hit_of_title hmem hfixture hf htitle
    obtain rfl := eq_of_name hmem hother hname
    exact ⟨hfixture, hhit⟩
  · rintro ⟨hfixture, hit, hhit, hdrop⟩
    obtain ⟨other, -, hdrop, hf⟩ :=
      exists_mem_scanContent (by decide) hcontent hrule hhit hdrop
    refine ⟨_, hf, ?_⟩
    rw [report, hfixture, if_neg Bool.false_ne_true]
    cases hverdict : (secrets.judged path content rule other).2 with
    | drop => exact absurd hverdict hdrop
    | pass => rfl
    | restate words =>
      have hspared : rule.sparesLoopback = true := (judge_forSecrets_eq_restate hverdict).1
      rw [hspares] at hspared
      cases hspared

/-- A match of a rule for secrets is not dropped iff neither its line nor its text speaks against
it. -/
theorem Matches.secret_ne_drop_iff {hit : Hit} {front line : List Char}
    (h : secrets.Matches path content rule hit front line) :
    (secrets.judged path content rule hit).2 ≠ .drop ↔ Unsuppressed rule front line ∧
      isPlaceholderLine line = false ∧ isPlaceholderValue hit.text = false := by
  have hstages : secrets.stages =
      Stage.common ++ [.placeholderLine, .placeholderValue, .loopbackDatabase] := rfl
  rw [h.judged_ne_drop_iff hstages, judge_secretStages, h.candidate_eq.2.1]
  rfl

section Assignments

open Rule

variable {v signs gap gap' : List Char} {sign : Char}

theorem assignedSecret_mem_rulesFor (path : String) :
    assignedSecret ∈ secrets.rulesFor path :=
  List.mem_filter.2 ⟨assignedSecret_mem, rfl⟩

/-- When a secret that is assigned is reported. -/
theorem reportsAs_assignment_iff (hsigns : IsSigns signs gap sign gap')
    (hv : ∀ c ∈ v, Secret.valueChar.has c = true) (hlength : 10 ≤ v.length) :
    secrets.ReportsAs path (assignment signs v) assignedSecret.title ↔
      isFixture path (assignment signs v) = false ∧
      Unsuppressed assignedSecret "client".toList
        (Text.lineAround "client".toList (assigned signs v)) ∧
      isPlaceholderLine (Text.lineAround "client".toList (assigned signs v)) = false ∧
      isPlaceholderValue (assigned signs v) = false := by
  rw [reportsAs_title_iff (assignedSecret_mem_rulesFor path) rfl assignment_ne_nil]
  refine and_congr_right fun _ => ?_
  -- All hits are alike: the text of the assignment can be spanned in one way only.
  have hdropped {hit : Hit} (hhit : hit ∈ assignedSecret.pattern.findAll (assignment signs v)) :
      (secrets.judged path (assignment signs v) assignedSecret hit).2 ≠ .drop ↔
        Unsuppressed assignedSecret "client".toList
          (Text.lineAround "client".toList (assigned signs v)) ∧
        isPlaceholderLine (Text.lineAround "client".toList (assigned signs v)) = false ∧
        isPlaceholderValue (assigned signs v) = false := by
    obtain ⟨front, line, hmatches⟩ := exists_matches (assignedSecret_mem_rulesFor path) hhit
    obtain ⟨rfl, htext, hrest⟩ :=
      eq_of_spans_assignment hsigns hv hmatches.content_eq.symm hmatches.spans
    rw [hmatches.secret_ne_drop_iff, hmatches.line_eq, htext, hrest, List.append_nil]
  have hfound : assignedSecret.pattern.found (assignment signs v) = true := by
    refine found_iff.2 ⟨_, _, _, ?_, spans_assignment hsigns hv hlength⟩
    rw [List.append_nil, assignment_eq_append]
  have hsome : assignedSecret.pattern.findAll (assignment signs v) ≠ [] := by
    rw [ne_eq, findAll_eq_nil_iff, hfound]
    exact Bool.noConfusion
  obtain ⟨hit, hmem⟩ := List.exists_mem_of_ne_nil _ hsome
  constructor
  · rintro ⟨other, hother, hdrop⟩
    exact (hdropped hother).1 hdrop
  · exact fun h => ⟨hit, hmem, (hdropped hmem).2 h⟩

/-- **A colon right behind the name of a secret** hides the secret: the name is then a word for
tests in front of a sign. -/
theorem not_reportsAs_colon (hgap : IsGap gap) (hv : ∀ c ∈ v, Secret.valueChar.has c = true)
    (hlength : 10 ≤ v.length) :
    ¬secrets.ReportsAs path (assignment (':' :: gap) v) assignedSecret.title := by
  have hsigns : IsSigns (':' :: gap) [] ':' gap :=
    ⟨rfl, fun _ hc => absurd hc List.not_mem_nil, by decide, hgap⟩
  rw [reportsAs_assignment_iff hsigns hv hlength]
  rintro ⟨-, -, -, hvalue⟩
  have hname : ∃ s ∈ Mark.testWords, Text.Spells "Secret".toList s :=
    ⟨"secret", by decide, spells_secret⟩
  have htest : Mark.testWord.found (assigned (':' :: gap) v) = true :=
    @Mark.found_testWord_of _ [] _ (fun _ hc => absurd hc (by simp)) hname
      fun c hc => Option.some.inj hc ▸ by decide
  simp [isPlaceholderValue, htest] at hvalue

/-- What stands between the name of a secret and its value, if no mark begins in front of the
value. -/
structure Clear (signs : List Char) : Prop where
  isSigns : ∃ gap sign gap', IsSigns signs gap sign gap'
  optOut : Mark.optOut.Skips ("clientSecret".toList ++ signs ++ ['\''])
  pragma : Mark.fixturePragma.Skips ("clientSecret".toList ++ signs ++ ['\''])
  definition : Mark.ruleDefinition.Skips ("clientSecret".toList ++ signs ++ ['\''])
  line : Mark.placeholderLine.Skips ("clientSecret".toList ++ signs ++ ['\''])
  word : Mark.placeholderWord.Skips ("Secret".toList ++ signs ++ ['\''])
  test : Mark.testWord.Skips ("Secret".toList ++ signs)
  few : ("Secret".toList ++ signs).all fun c => ("Secret".toList ++ signs).count c < 8
  plain : ("Secret".toList ++ signs).any "'\n<$\x7b".toList.contains = false

/-- An equals sign, or a colon behind a blank. -/
def clearSigns : List String := ["=", " = ", " : "]

theorem clear_of_mem {signs : String} (h : signs ∈ clearSigns) : Clear signs.toList := by
  have hnone : IsGap [] := fun _ hc => absurd hc List.not_mem_nil
  have hspace : IsGap [' '] := by simp [IsGap, Text.isBlank]
  simp only [clearSigns, List.mem_cons, List.not_mem_nil, or_false] at h
  rcases h with rfl | rfl | rfl
  · exact ⟨⟨[], '=', [], rfl, hnone, by decide, hnone⟩, fun _ => rfl, fun _ => rfl, fun _ => rfl,
      fun _ => rfl, fun _ => rfl, fun _ => rfl, by decide, by decide⟩
  · exact ⟨⟨[' '], '=', [' '], rfl, hspace, by decide, hspace⟩, fun _ => rfl, fun _ => rfl,
      fun _ => rfl, fun _ => rfl, fun _ => rfl, fun _ => rfl, by decide, by decide⟩
  · exact ⟨⟨[' '], ':', [' '], rfl, hspace, by decide, hspace⟩, fun _ => rfl, fun _ => rfl,
      fun _ => rfl, fun _ => rfl, fun _ => rfl, fun _ => rfl, by decide, by decide⟩

namespace Clear

theorem not_mem (h : Clear signs) {c : Char} (hc : c ∈ "'\n<$\x7b".toList) :
    c ∉ "Secret".toList ++ signs :=
  fun hmem => List.any_eq_false.1 h.plain c hmem (List.contains_iff_mem.2 hc)

theorem optedOut_eq (h : Clear signs) :
    isOptedOut (assignment signs v) = Mark.optOut.found v := by
  rw [isOptedOut, assignment_eq]
  exact Mark.within_optOut.found_quoted h.optOut

theorem placeholderLine_eq (h : Clear signs) :
    isPlaceholderLine (assignment signs v) = Mark.placeholderLine.found v := by
  rw [isPlaceholderLine, assignment_eq]
  exact Mark.within_placeholderLine.found_quoted h.line

theorem ruleDefinition_eq (h : Clear signs) (hv : ∀ c ∈ v, Secret.valueChar.has c = true) :
    isRuleDefinition (assignment signs v) = false := by
  rw [isRuleDefinition, assignment_eq, List.append_cons]
  refine h.definition.found_eq_false_of_needs (f := (· == ':')) (by decide) ?_
  refine List.forall_mem_append.2 ⟨fun c hc => ?_, List.forall_mem_singleton.2 rfl⟩
  rw [beq_eq_false_iff_ne]
  rintro rfl
  exact not_value (hv _ hc) (by decide)

theorem not_newline (h : Clear signs) (hv : ∀ c ∈ v, Secret.valueChar.has c = true) :
    '\n' ∉ assigned signs v := by
  have hsigns : '\n' ∉ signs := fun hmem => h.not_mem (by decide) (List.mem_append_right _ hmem)
  have hvalue : '\n' ∉ v := fun hmem => not_value (hv _ hmem) (by decide)
  intro hmem
  rcases List.mem_append.1 hmem with hmem | hmem
  · exact absurd hmem (by decide)
  · simp [hsigns, hvalue] at hmem

theorem placeholderValue_eq (h : Clear signs) (hv : ∀ c ∈ v, Secret.valueChar.has c = true) :
    isPlaceholderValue (assigned signs v) = (Mark.placeholderWord.found v ||
      Mark.testWord.found v || Mark.repeatedChar.found v) := by
  have hnot {c : Char} (hc : c ∈ foreignSigns) : c ∉ v := fun hmem => not_value (hv c hmem) hc
  -- A template variable needs one of three characters, which are neither in the signs nor in a
  -- value.
  have htemplate : Mark.templateVariable.found (assigned signs v) = false := by
    rw [assigned_eq]
    refine found_eq_false_of_needs (f := "<$\x7b".toList.contains) (by decide) fun c hc => ?_
    rw [← Bool.not_eq_true, List.contains_iff_mem]
    intro hmem
    have hfront : "'\n<$\x7b".toList = "'\n".toList ++ "<$\x7b".toList := rfl
    have hforeign : foreignSigns = "\"':\n".toList ++ "<$\x7b".toList := rfl
    rcases List.mem_append.1 hc with hc | hc
    · exact h.not_mem (hfront ▸ List.mem_append_right _ hmem) hc
    · have hvalue := hnot (hforeign ▸ List.mem_append_right _ hmem)
      have hquote : c ≠ '\'' := by
        rintro rfl
        exact absurd hmem (by decide)
      simp [hvalue, hquote] at hc
  have hfew : ∀ c ∈ "Secret".toList ++ signs, ("Secret".toList ++ signs).count c < 8 :=
    fun c hc => of_decide_eq_true (List.all_eq_true.1 h.few c hc)
  rw [isPlaceholderValue, htemplate, assigned_eq, Mark.found_placeholderEnding_quoted,
    Mark.within_placeholderWord.found_quoted h.word,
    Mark.found_testWord_quoted h.test (by simp) (hnot (by decide)),
    Mark.found_repeatedChar_quoted hfew (hnot (by decide)) (h.not_mem (by decide)), Bool.or_false,
    Bool.or_false]

theorem fixture_eq (h : Clear signs) (hv : ∀ c ∈ v, Secret.valueChar.has c = true)
    (hfolder : inFixtureFolder path = false) (hname : hasFixtureName path = false) :
    isFixture path (assignment signs v) = Mark.fixturePragma.found v := by
  have hline : '\n' ∉ assignment signs v := by
    rw [assignment_eq_append, List.mem_append, not_or]
    exact ⟨by decide, h.not_newline hv⟩
  have hheader : header (assignment signs v) = assignment signs v := by
    rw [header, Text.splitLines, Text.splitOn_of_not_mem hline]
    rfl
  rw [isFixture, hfolder, hname, Bool.false_or, Bool.false_or, hasFixturePragma, hheader,
    assignment_eq]
  exact Mark.within_fixturePragma.found_quoted h.pragma

theorem lineAround_eq (h : Clear signs) (hv : ∀ c ∈ v, Secret.valueChar.has c = true) :
    Text.lineAround "client".toList (assigned signs v) = assignment signs v := by
  have hline : (assigned signs v).takeWhile (· != '\n') = assigned signs v :=
    List.takeWhile_eq_self_iff.2 fun c hc =>
      bne_iff_ne.2 fun heq => h.not_newline hv (heq ▸ hc)
  rw [Text.lineAround, hline, assignment_eq_append]
  rfl

/-- **A secret that is assigned with clear signs is reported iff its value is unmarked.** -/
theorem reportsAs_iff (h : Clear signs) (hfolder : inFixtureFolder path = false)
    (hname : hasFixtureName path = false) (hv : ∀ c ∈ v, Secret.valueChar.has c = true)
    (hlength : 10 ≤ v.length) :
    secrets.ReportsAs path (assignment signs v) assignedSecret.title ↔ Mark.Unmarked v := by
  obtain ⟨gap, sign, gap', hsigns⟩ := h.isSigns
  have hcomment : isComment (assignment signs v) = false := rfl
  rw [reportsAs_assignment_iff hsigns hv hlength, h.lineAround_eq hv, h.fixture_eq hv hfolder hname,
    h.placeholderLine_eq, h.placeholderValue_eq hv, Bool.or_eq_false_iff, Bool.or_eq_false_iff]
  constructor
  · rintro ⟨hpragma, hline, hplaceholder, ⟨hword, htest⟩, hrun⟩
    exact ⟨h.optedOut_eq.symm.trans hline.noOptOut, hpragma, hplaceholder, hword, htest, hrun⟩
  · rintro ⟨hoptOut, hpragma, hplaceholder, hword, htest, hrun⟩
    exact ⟨hpragma, ⟨by decide, h.optedOut_eq.trans hoptOut, h.ruleDefinition_eq hv,
      fun _ => hcomment⟩, hplaceholder, ⟨hword, htest⟩, hrun⟩

end Clear

/-- **A colon and an equals sign are not taken alike.** A secret of at least ten characters that is
assigned with a colon right behind its name is never reported. With an equals sign, or with a blank
in front of the colon, it is reported iff its value is unmarked. So the two spellings agree on
marked values alone. -/
theorem reportsAs_assignedSecret (hfolder : inFixtureFolder path = false)
    (hname : hasFixtureName path = false) (hv : ∀ c ∈ v, Secret.valueChar.has c = true)
    (hlength : 10 ≤ v.length) :
    (∀ gap, IsGap gap →
      ¬secrets.ReportsAs path (assignment (':' :: gap) v) assignedSecret.title) ∧
    (∀ signs ∈ clearSigns, secrets.ReportsAs path (assignment signs.toList v)
      assignedSecret.title ↔ Mark.Unmarked v) ∧
    ((secrets.ReportsAs path (assignment ": ".toList v) assignedSecret.title ↔
      secrets.ReportsAs path (assignment " = ".toList v) assignedSecret.title) ↔
        ¬Mark.Unmarked v) := by
  have hcolon {gap : List Char} (hgap : IsGap gap) :
      ¬secrets.ReportsAs path (assignment (':' :: gap) v) assignedSecret.title :=
    not_reportsAs_colon hgap hv hlength
  have hclear {signs : String} (hsigns : signs ∈ clearSigns) :
      secrets.ReportsAs path (assignment signs.toList v) assignedSecret.title ↔
        Mark.Unmarked v :=
    (clear_of_mem hsigns).reportsAs_iff hfolder hname hv hlength
  refine ⟨fun _ => hcolon, fun _ => hclear, ?_⟩
  have hspace : IsGap [' '] := by simp [IsGap, Text.isBlank]
  have hequals : " = " ∈ clearSigns := by decide
  rw [hclear hequals]
  exact ⟨fun hiff hunmarked => hcolon hspace (hiff.2 hunmarked),
    fun hmarked => iff_of_false (hcolon hspace) hmarked⟩

/-- A key that is reported with one spelling alone. -/
theorem reportsAs_assignedSecret_key :
    Mark.Unmarked "Zq8Lm2Vx9R".toList ∧
    ¬secrets.ReportsAs "a.py" (assignment ": ".toList "Zq8Lm2Vx9R".toList) assignedSecret.title ∧
    secrets.ReportsAs "a.py" (assignment " = ".toList "Zq8Lm2Vx9R".toList)
      assignedSecret.title := by
  have hunmarked : Mark.Unmarked "Zq8Lm2Vx9R".toList := by
    constructor <;> decide +kernel
  have hpath : inFixtureFolder "a.py" = false ∧ hasFixtureName "a.py" = false := by decide +kernel
  have hvalue : "Zq8Lm2Vx9R".toList.all Secret.valueChar.has = true := by decide
  have hall := reportsAs_assignedSecret hpath.1 hpath.2 (List.all_eq_true.1 hvalue) (by decide)
  have hspace : IsGap [' '] := by simp [IsGap, Text.isBlank]
  exact ⟨hunmarked, hall.1 _ hspace, (hall.2.1 " = " (by decide)).2 hunmarked⟩

/-- With a colon nothing is found of what is reported with an equals sign. -/
theorem scanContent_assignment_colon :
    secrets.scanContent "a.py" "clientSecret: 'Zq8Lm2Vx9R'".toList = [] ∧
    (secrets.scanContent "a.py" "clientSecret = 'Zq8Lm2Vx9R'".toList).map Finding.title =
      ["Hardcoded secret assignment detected"] := by
  decide +kernel

end Assignments

end RuleSet

end WorkspaceAudit
