import WorkspaceAudit.Proofs.Files.Collecting
import WorkspaceAudit.Proofs.Time.Text
import WorkspaceAudit.Report.Store

/-!
# The names of stored reports

- `Report.isFileNameOf_fileName`: a name is one of a report of a project only if the report is of
  that very project, though the names of other projects may begin in the same way.
- `Report.fileName_inj`: the name of a report tells its project and its day.
- `Report.fileName_le_iff`: the names of the reports of a project stand in the order of their days.
- `Report.latestName?_eq_some`: the latest name is the greatest one of the project.
-/

namespace WorkspaceAudit

open Text.Decimal

/-! ## The order of rows of digits -/

/-- Rows of the same length decide the order of what begins with them. -/
theorem append_lt_append_iff {a b : List Char} (h : a.length = b.length) (c d : List Char) :
    a ++ c < b ++ d ↔ a < b ∨ a = b ∧ c < d := by
  induction a generalizing b with
  | nil =>
    obtain rfl := List.length_eq_zero_iff.1 h.symm
    simp
  | cons x a ih =>
    cases b with
    | nil => cases h
    | cons y b =>
      rw [List.cons_append, List.cons_append, List.cons_lt_cons_iff, List.cons_lt_cons_iff,
        ih (Nat.succ.inj h), List.cons.injEq]
      constructor
      · rintro (hlt | ⟨rfl, hlt | ⟨rfl, hlt⟩⟩)
        · exact .inl (.inl hlt)
        · exact .inl (.inr ⟨rfl, hlt⟩)
        · exact .inr ⟨⟨rfl, rfl⟩, hlt⟩
      · rintro ((hlt | ⟨rfl, hlt⟩) | ⟨⟨rfl, rfl⟩, hlt⟩)
        · exact .inl hlt
        · exact .inr ⟨rfl, .inl hlt⟩
        · exact .inr ⟨rfl, .inr ⟨rfl, hlt⟩⟩

namespace Text.Decimal

/-- Digits stand in the order of their values. -/
theorem digit_lt_iff {c d : Char} (hc : isDigit c = true) (hd : isDigit d = true) :
    c < d ↔ digitValue c < digitValue d := by
  simp only [isDigit, Bool.and_eq_true, decide_eq_true_eq] at hc hd
  have hc' : 48 ≤ c.toNat := hc.1
  have hd' : 48 ≤ d.toNat := hd.1
  have hlt : c < d ↔ c.toNat < d.toNat := Iff.rfl
  rw [hlt, digitValue, digitValue]
  omega

theorem digitValue_inj {c d : Char} (hc : isDigit c = true) (hd : isDigit d = true)
    (h : digitValue c = digitValue d) : c = d := by
  simp only [isDigit, Bool.and_eq_true, decide_eq_true_eq] at hc hd
  have hc' : 48 ≤ c.toNat := hc.1
  have hd' : 48 ≤ d.toNat := hd.1
  have hcode : c.toNat = d.toNat := by
    rw [digitValue, digitValue] at h
    omega
  rw [← Char.ofNat_toNat c, hcode, Char.ofNat_toNat]

/-- Rows of digits of the same length stand in the order of the numbers that they write. -/
theorem lt_iff_value_lt {a b : List Char} (ha : ∀ c ∈ a, isDigit c = true)
    (hb : ∀ c ∈ b, isDigit c = true) (h : a.length = b.length) : a < b ↔ value a < value b := by
  induction a generalizing b with
  | nil =>
    obtain rfl := List.length_eq_zero_iff.1 h.symm
    simp
  | cons c a ih =>
    cases b with
    | nil => cases h
    | cons d b =>
      obtain ⟨hc, ha⟩ := List.forall_mem_cons.1 ha
      obtain ⟨hd, hb⟩ := List.forall_mem_cons.1 hb
      have hlength : a.length = b.length := Nat.succ.inj h
      -- The digits after the first cannot make up for a difference there.
      have hvalue : value a < Nat.pow 10 b.length := value_lt ha (Nat.le_of_eq hlength)
      have hvalue' : value b < Nat.pow 10 b.length := value_lt hb (Nat.le_refl _)
      rw [List.cons_lt_cons_iff, ih ha hb hlength, value_cons, value_cons, hlength,
        digit_lt_iff hc hd]
      rcases Nat.lt_trichotomy (digitValue c) (digitValue d) with hlt | heq | hgt
      · have hmul := Nat.mul_le_mul_left (Nat.pow 10 b.length) (Nat.succ_le_of_lt hlt)
        rw [Nat.mul_succ] at hmul
        exact iff_of_true (.inl hlt) (by omega)
      · obtain rfl := digitValue_inj hc hd heq
        simp
      · have hmul := Nat.mul_le_mul_left (Nat.pow 10 b.length) (Nat.succ_le_of_lt hgt)
        rw [Nat.mul_succ] at hmul
        refine iff_of_false ?_ (by omega)
        rintro (hlt | ⟨rfl, -⟩)
        · exact Nat.lt_asymm hlt hgt
        · exact Nat.lt_irrefl _ hgt

theorem padded_lt_iff {width n k : Nat} (hwidth : 0 < width) (hn : n < Nat.pow 10 width)
    (hk : k < Nat.pow 10 width) : (padded width n).toList < (padded width k).toList ↔ n < k := by
  rw [lt_iff_value_lt (fun c => isDigit_of_mem_padded) (fun c => isDigit_of_mem_padded)
    ((length_padded hwidth hn).trans (length_padded hwidth hk).symm), value_padded, value_padded]

theorem padded_inj {width n k : Nat} :
    (padded width n).toList = (padded width k).toList ↔ n = k := by
  refine ⟨fun h => ?_, fun h => h ▸ rfl⟩
  rw [← value_padded width n, h, value_padded]

end Text.Decimal

/-! ## Days -/

namespace Date

/-- The day comes before the other one. -/
def Before (d e : Date) : Prop :=
  d.year < e.year ∨ d.year = e.year ∧ (d.month < e.month ∨ d.month = e.month ∧ d.day < e.day)

instance (d e : Date) : Decidable (d.Before e) :=
  inferInstanceAs (Decidable (_ ∨ _))

/-- The texts of days have one length. -/
theorem length_text (d : Date) : d.text.toList.length = 10 := by
  obtain ⟨hyear, hmonth, hday⟩ := d.bounds
  have hfour : (padded 4 d.year).toList.length = 4 := length_padded (by decide) hyear
  have htwo : (padded 2 d.month).toList.length = 2 := length_padded (by decide) hmonth
  have htwo' : (padded 2 d.day).toList.length = 2 := length_padded (by decide) hday
  simp only [toList_text, List.length_append, List.length_cons, hfour, htwo, htwo']

/-- **The texts of days stand in the order of the days.** -/
theorem text_lt_iff (d e : Date) : d.text.toList < e.text.toList ↔ d.Before e := by
  obtain ⟨hyear, hmonth, hday⟩ := d.bounds
  obtain ⟨hyear', hmonth', hday'⟩ := e.bounds
  have hfour : (padded 4 d.year).toList.length = (padded 4 e.year).toList.length :=
    (length_padded (by decide) hyear).trans (length_padded (by decide) hyear').symm
  have htwo : (padded 2 d.month).toList.length = (padded 2 e.month).toList.length :=
    (length_padded (by decide) hmonth).trans (length_padded (by decide) hmonth').symm
  rw [toList_text, toList_text, append_lt_append_iff hfour, List.cons_lt_cons_iff,
    append_lt_append_iff htwo, List.cons_lt_cons_iff, padded_lt_iff (by decide) hyear hyear',
    padded_lt_iff (by decide) hmonth hmonth', padded_lt_iff (by decide) hday hday', padded_inj,
    padded_inj, Before]
  simp

theorem text_inj {d e : Date} (h : d.text = e.text) : d = e := by
  have hread := Moment.readDay?_text d []
  rw [h, Moment.readDay?_text] at hread
  obtain ⟨year, month, day, valid⟩ := d
  obtain ⟨year', month', day', valid'⟩ := e
  simp only [Option.some.injEq, Prod.mk.injEq, and_true] at hread
  obtain ⟨rfl, rfl, rfl⟩ := hread
  rfl

end Date

/-! ## Names -/

namespace Report

variable {r s : Report} {project name : String}

theorem toList_fileName (r : Report) : r.fileName.toList =
    r.project.toList ++ '-' :: (r.scannedAt.date.text.toList ++ ".json".toList) := by
  simp [fileName]

theorem isDigit_of_latin {c : Char} (h : isDigit c = true) : Text.isDigit c = true := by
  simp only [isDigit, Bool.and_eq_true, decide_eq_true_eq] at h
  have hleast : 48 ≤ c.toNat := h.1
  have hgreatest : c.toNat ≤ 57 := h.2
  rw [Text.isDigit, if_pos (by omega)]
  simp only [Char.isDigit, Bool.and_eq_true, decide_eq_true_eq]
  exact h

/-- Digits at the start of a text are dropped. -/
theorem dropDigits?_append {ds : List Char} (hds : ∀ c ∈ ds, isDigit c = true)
    (rest : List Char) : dropDigits? ds.length (ds ++ rest) = some rest := by
  induction ds with
  | nil => rw [List.length_nil, List.nil_append, dropDigits?]
  | cons c ds ih =>
    obtain ⟨hc, hds⟩ := List.forall_mem_cons.1 hds
    rw [List.length_cons, List.cons_append, dropDigits?, if_pos (isDigit_of_latin hc), ih hds]

theorem dropDigits?_padded {width n : Nat} (hwidth : 0 < width) (h : n < Nat.pow 10 width)
    (rest : List Char) : dropDigits? width ((padded width n).toList ++ rest) = some rest := by
  have hdigit : ∀ c ∈ (padded width n).toList, isDigit c = true := fun c => isDigit_of_mem_padded
  have hdrop := dropDigits?_append hdigit rest
  rwa [length_padded hwidth h] at hdrop

theorem isDayEnding_text (d : Date) :
    isDayEnding ('-' :: (d.text.toList ++ ".json".toList)) = true := by
  obtain ⟨hyear, hmonth, hday⟩ := d.bounds
  have hdash (rest : List Char) : dropChar? '-' ('-' :: rest) = some rest := rfl
  have hfour (rest : List Char) : dropDigits? 4 ((padded 4 d.year).toList ++ rest) = some rest :=
    dropDigits?_padded (by decide) hyear rest
  have htwo {n : Nat} (h : n < 100) (rest : List Char) :
      dropDigits? 2 ((padded 2 n).toList ++ rest) = some rest :=
    dropDigits?_padded (by decide) h rest
  simp only [isDayEnding, Date.toList_text, List.append_assoc, List.cons_append, hdash, hfour,
    htwo hmonth, htwo hday, Option.bind_eq_bind, Option.bind_some, beq_self_eq_true]

theorem length_of_dropDigits? {n : Nat} {s rest : List Char} (h : dropDigits? n s = some rest) :
    s.length = n + rest.length := by
  fun_induction dropDigits? n s with
  | case1 s =>
    obtain rfl := Option.some.inj h
    rw [Nat.zero_add]
  | case2 n c s hc ih =>
    rw [List.length_cons, ih h]
    omega
  | case3 => cases h
  | case4 => cases h

theorem length_of_dropChar? {c : Char} {s rest : List Char} (h : dropChar? c s = some rest) :
    s.length = 1 + rest.length := by
  cases s with
  | nil => cases h
  | cons d s =>
    rw [dropChar?] at h
    split at h
    · obtain rfl := Option.some.inj h
      rw [List.length_cons, Nat.add_comm]
    · cases h

/-- The day and the ending of a name have one length. -/
theorem length_of_isDayEnding {s : List Char} (h : isDayEnding s = true) : s.length = 16 := by
  simp only [isDayEnding, beq_iff_eq, Option.bind_eq_bind, Option.bind_eq_some_iff] at h
  obtain ⟨s₁, h₁, s₂, h₂, s₃, h₃, s₄, h₄, s₅, h₅, h₆⟩ := h
  rw [length_of_dropChar? h₁, length_of_dropDigits? h₂, length_of_dropChar? h₃,
    length_of_dropDigits? h₄, length_of_dropChar? h₅, length_of_dropDigits? h₆]
  rfl

/-- **A name is one of a report of its own project only.** The names of other projects may begin in
the same way, but the day and the ending have one length. -/
theorem isFileNameOf_fileName (r : Report) (project : String) :
    isFileNameOf project r.fileName = true ↔ r.project = project := by
  rw [isFileNameOf, Bool.and_eq_true, List.isPrefixOf_iff_prefix, ← String.length_toList,
    toList_fileName]
  constructor
  · rintro ⟨⟨rest, hrest⟩, hending⟩
    have hlength : project.toList.length = r.project.toList.length := by
      have hlast : rest.length = 16 := by
        rw [← hrest, List.drop_left] at hending
        exact length_of_isDayEnding hending
      have hwhole := congrArg List.length hrest
      have hjson : ".json".toList.length = 5 := by decide
      simp only [List.length_append, List.length_cons, Date.length_text, hlast, hjson] at hwhole
      omega
    exact (String.toList_inj.1 (List.append_inj_left hrest hlength)).symm
  · rintro rfl
    rw [List.drop_left]
    exact ⟨List.prefix_append _ _, isDayEnding_text _⟩

/-- **The name of a report tells its project and its day.** -/
theorem fileName_inj (h : r.fileName = s.fileName) :
    r.project = s.project ∧ r.scannedAt.date = s.scannedAt.date := by
  have hproject : r.project = s.project :=
    (isFileNameOf_fileName r _).1 (h ▸ (isFileNameOf_fileName s _).2 rfl)
  refine ⟨hproject, Date.text_inj ?_⟩
  have hlists := congrArg String.toList h
  rw [toList_fileName, toList_fileName, hproject] at hlists
  exact String.toList_inj.1
    (List.append_cancel_right (List.cons.inj (List.append_cancel_left hlists)).2)

/-- **The names of the reports of a project stand in the order of their days.** -/
theorem fileName_le_iff (h : r.project = s.project) :
    r.fileName ≤ s.fileName ↔ ¬s.scannedAt.date.Before r.scannedAt.date := by
  have hday := append_lt_append_iff ((Date.length_text s.scannedAt.date).trans
    (Date.length_text r.scannedAt.date).symm) ".json".toList ".json".toList
  have hlt : s.fileName < r.fileName ↔ s.fileName.toList < r.fileName.toList := Iff.rfl
  rw [← Date.text_lt_iff, ← String.not_lt, hlt, toList_fileName, toList_fileName, h,
    append_lt_append_iff rfl, List.cons_lt_cons_iff, hday]
  simp

/-! ## The latest name -/

/-- The latest name is the greatest one of the project. -/
theorem latestName?_eq_some {names : List String} (h : latestName? project names = some name) :
    name ∈ names ∧ isFileNameOf project name = true ∧
      ∀ other ∈ names, isFileNameOf project other = true → other ≤ name := by
  obtain ⟨before, hsorted⟩ := List.getLast?_eq_some_iff.1 h
  have hmem {other : String} : other ∈ names ∧ isFileNameOf project other = true ↔
      other ∈ before ++ [name] := by
    rw [← List.mem_filter, ← hsorted, mem_sortByName]
  have hpairwise := pairwise_sortByName id (names.filter (isFileNameOf project))
  rw [hsorted, List.pairwise_append] at hpairwise
  obtain ⟨hname, hof⟩ := hmem.2 List.mem_concat_self
  refine ⟨hname, hof, fun other hother hofOther => ?_⟩
  rcases List.mem_append.1 (hmem.1 ⟨hother, hofOther⟩) with hbefore | hlast
  · exact of_decide_eq_true (hpairwise.2.2 other hbefore name List.mem_cons_self)
  · obtain rfl := List.mem_singleton.1 hlast
    exact String.le_refl other

theorem latestName?_eq_none {names : List String} :
    latestName? project names = none ↔ ∀ name ∈ names, isFileNameOf project name = false := by
  rw [latestName?, List.getLast?_eq_none_iff, List.eq_nil_iff_forall_not_mem]
  simp only [mem_sortByName, List.mem_filter, not_and, Bool.not_eq_true]

end Report

end WorkspaceAudit
