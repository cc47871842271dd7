import WorkspaceAudit.Proofs.Json.Reading

/-!
# What the readers take, and why they stop

A reader takes some characters from the start of a text. If it stops with an error, the text is
malformed, or it shows why a bound of the dialect does not allow it: brackets that have been opened,
or a row of digits.

- `Explained d depth s r`: the result `r` of reading `s` inside `depth` arrays and objects has such
  a reason.
- `explains`: this holds of every value.
- `of_parse_tooDeep`, `of_parse_tooManyDigits`: so a text that goes beyond a bound opens too many
  brackets, or holds too many digits in a row.
-/

namespace WorkspaceAudit.Json

open Text.Decimal

/-! ## What the leaves take -/

theorem eq_append_of_dropWord? {word s rest : List Char} (h : dropWord? word s = some rest) :
    s = word ++ rest := by
  fun_induction dropWord? word s with
  | case1 s => exact Option.some.inj h
  | case2 => cases h
  | case3 w word c s heq ih => rw [ih h, List.cons_append, eq_of_beq heq]
  | case4 => cases h

theorem suffix_skipGap (s : List Char) : skipGap s <:+ s := List.dropWhile_suffix _

/-- What follows the first character behind a gap. -/
theorem suffix_of_skipGap {c : Char} {s rest : List Char} (h : skipGap s = c :: rest) :
    rest <:+ s := by
  have hgap := suffix_skipGap s
  rw [h] at hgap
  exact (List.suffix_cons c rest).trans hgap

/-- What follows the first character behind a gap, and another gap. -/
theorem suffix_after_skipGap {c : Char} {s rest : List Char} (h : skipGap s = c :: rest) :
    skipGap rest <:+ s :=
  (suffix_skipGap rest).trans (suffix_of_skipGap h)

theorem suffix_of_hexUnit? {s rest : List Char} {unit : Nat}
    (h : hexUnit? s = some (unit, rest)) : rest <:+ s := by
  unfold hexUnit? at h
  split at h
  · simp only [Option.pure_def, Option.bind_eq_bind, Option.bind_eq_some_iff, Option.some.injEq,
      Prod.mk.injEq] at h
    obtain ⟨a, -, b, -, c, -, d, -, -, rfl⟩ := h
    exact ⟨[_, _, _, _], rfl⟩
  · cases h

theorem suffix_of_unitPoint? {s rest : List Char} {unit : Nat} {p : Point}
    (h : unitPoint? unit s = some (p, rest)) : rest <:+ s := by
  unfold unitPoint? at h
  split at h
  · split at h
    · obtain ⟨⟨low, more⟩, hlow, h⟩ := Option.bind_eq_some_iff.1 h
      have hmore := suffix_of_hexUnit? hlow
      simp only at h
      split at h
      · obtain ⟨-, rfl⟩ := Prod.mk.inj (Option.some.inj h)
        exact hmore.trans ⟨['\\', 'u'], rfl⟩
      · obtain ⟨-, rfl⟩ := Prod.mk.inj (Option.some.inj h)
        exact List.suffix_rfl
    · obtain ⟨-, rfl⟩ := Prod.mk.inj (Option.some.inj h)
      exact List.suffix_rfl
  · obtain ⟨-, rfl⟩ := Prod.mk.inj (Option.some.inj h)
    exact List.suffix_rfl

theorem suffix_of_escape? {s rest : List Char} {p : Point} (h : escape? s = some (p, rest)) :
    rest <:+ s := by
  unfold escape? at h
  split at h
  · obtain ⟨⟨unit, more⟩, hunit, h⟩ := Option.bind_eq_some_iff.1 h
    exact ((suffix_of_unitPoint? h).trans (suffix_of_hexUnit? hunit)).trans
      (List.suffix_cons _ _)
  · obtain ⟨c, -, hpair⟩ := Option.map_eq_some_iff.1 h
    obtain ⟨-, rfl⟩ := Prod.mk.inj hpair
    exact List.suffix_cons _ _
  · cases h

theorem suffix_of_textBody? {fuel : Nat} {s rest : List Char} {ps : List Point}
    (h : textBody? fuel s = some (ps, rest)) : rest <:+ s := by
  fun_induction textBody? fuel s generalizing ps with
  | case1 => cases h
  | case2 => cases h
  | case3 =>
    obtain ⟨-, rfl⟩ := Prod.mk.inj (Option.some.inj h)
    exact List.suffix_cons _ _
  | case4 fuel c s _ _ ih =>
    obtain ⟨⟨p, more⟩, hescape, h⟩ := Option.bind_eq_some_iff.1 h
    obtain ⟨⟨others, last⟩, hbody, h⟩ := Option.bind_eq_some_iff.1 h
    obtain ⟨-, rfl⟩ := Prod.mk.inj (Option.some.inj h)
    exact ((ih _ hbody).trans (suffix_of_escape? hescape)).trans (List.suffix_cons _ _)
  | case5 => cases h
  | case6 fuel c s _ _ _ ih =>
    obtain ⟨⟨others, last⟩, hbody, h⟩ := Option.bind_eq_some_iff.1 h
    obtain ⟨-, rfl⟩ := Prod.mk.inj (Option.some.inj h)
    exact (ih hbody).trans (List.suffix_cons _ _)

variable {τ : Type} {d : Dialect τ}

theorem suffix_of_text? {s rest : List Char} {t : τ} (h : d.text? s = some (t, rest)) :
    rest <:+ s := by
  obtain ⟨⟨points, more⟩, htext, h⟩ := Option.bind_eq_some_iff.1 h
  obtain ⟨accepted, -, h⟩ := Option.bind_eq_some_iff.1 h
  obtain ⟨-, rfl⟩ := Prod.mk.inj (Option.some.inj h)
  obtain ⟨⟨ps, last⟩, hbody, hpair⟩ := Option.map_eq_some_iff.1 htext
  obtain ⟨-, rfl⟩ := Prod.mk.inj hpair
  exact suffix_of_textBody? hbody

theorem eq_append_of_wholePart? {s whole rest : List Char}
    (h : wholePart? s = some (whole, rest)) : s = whole ++ rest := by
  unfold wholePart? at h
  split at h
  · obtain ⟨rfl, rfl⟩ := Prod.mk.inj (Option.some.inj h)
    rfl
  · rw [List.span_eq_takeWhile_dropWhile] at h
    split at h
    · cases h
    · rename_i hspan
      obtain ⟨rfl, rfl⟩ := Prod.mk.inj (Option.some.inj h)
      rw [← (Prod.mk.inj hspan).1, ← (Prod.mk.inj hspan).2, List.takeWhile_append_dropWhile]

theorem suffix_fraction (s : List Char) : (fraction s).2 <:+ s := by
  unfold fraction
  split
  · rw [List.span_eq_takeWhile_dropWhile]
    split
    · exact List.suffix_rfl
    · rename_i hspan
      rw [← (Prod.mk.inj hspan).2]
      exact (List.dropWhile_suffix _).trans (List.suffix_cons _ _)
  · exact List.suffix_rfl

theorem suffix_of_exponentDigits {negative : Bool} {s rest : List Char} {e : Int}
    (h : exponentDigits negative s = some (e, rest)) : rest <:+ s := by
  unfold exponentDigits at h
  rw [List.span_eq_takeWhile_dropWhile] at h
  split at h
  · cases h
  · rename_i hspan
    obtain ⟨-, rfl⟩ := Prod.mk.inj (Option.some.inj h)
    rw [← (Prod.mk.inj hspan).2]
    exact List.dropWhile_suffix _

/-- The exponent after its letter and sign; without digits, `whole` is left. -/
def exponentAfter (negative : Bool) (whole s : List Char) : Option Int × List Char :=
  match exponentDigits negative s with
  | some (e, rest) => (some e, rest)
  | none => (none, whole)

theorem suffix_exponentAfter (negative : Bool) {s more : List Char} (hmore : more <:+ s) :
    (exponentAfter negative s more).2 <:+ s := by
  unfold exponentAfter
  split
  · rename_i hdigits
    exact (suffix_of_exponentDigits hdigits).trans hmore
  · exact List.suffix_rfl

theorem suffix_exponent (s : List Char) : (exponent s).2 <:+ s := by
  unfold exponent
  simp only
  split
  · split
    · exact suffix_exponentAfter false ⟨[_, _], rfl⟩
    · exact List.suffix_rfl
  · split
    · exact suffix_exponentAfter true ⟨[_, _], rfl⟩
    · exact List.suffix_rfl
  · split
    · exact suffix_exponentAfter false (List.suffix_cons _ _)
    · exact List.suffix_rfl
  · exact List.suffix_rfl

theorem suffix_of_word? {s rest : List Char} {v : Json τ} (h : word? s = some (v, rest)) :
    rest <:+ s := by
  obtain ⟨⟨word, w⟩, -, hword⟩ := List.exists_of_findSome?_eq_some h
  obtain ⟨more, hdrop, hpair⟩ := Option.map_eq_some_iff.1 hword
  obtain ⟨-, rfl⟩ := Prod.mk.inj hpair
  rw [eq_append_of_dropWord? hdrop]
  exact List.suffix_append _ _

/-! ## Results that are explained -/

/-- How many arrays and objects a text opens at most. -/
def openings (s : List Char) : Nat := s.countP fun c => c == '[' || c == '\x7b'

theorem openings_mono {s t : List Char} (h : s <:+ t) : openings s ≤ openings t :=
  h.sublist.countP_le

/-- The result of reading a text inside `depth` arrays and objects: a rest of the text; or an error
that the text accounts for. -/
inductive Explained (d : Dialect τ) (depth : Nat) (s : List Char) {α : Type} : Read α → Prop where
  | ok {a : α} {rest : List Char} (suffix : rest <:+ s) : Explained d depth s (.ok (a, rest))
  | malformed : Explained d depth s (.error .malformed)
  | tooDeep {array : Bool} (deep : d.depth < depth + openings s) :
    Explained d depth s (.error (.tooDeep array))
  | tooManyDigits {run : List Char} (inside : run <:+: s) (digits : ∀ c ∈ run, isDigit c = true)
    (long : longest < run.length) : Explained d depth s (.error (.tooManyDigits run.length))

namespace Explained

variable {α β : Type} {depth : Nat} {s t : List Char}

theorem suffix {a : α} {rest : List Char} (h : Explained d depth s (.ok (a, rest))) :
    rest <:+ s := by
  cases h with
  | ok suffix => exact suffix

/-- The error of a part is an error of the whole, if the whole opens as many arrays and objects more
as stand around the part. -/
theorem error_of_part {inner : Nat} {e : ReadError}
    (h : Explained d inner t (.error e : Read α)) (hpart : t <:+ s)
    (hdepth : inner + openings t ≤ depth + openings s) :
    Explained d depth s (.error e : Read β) := by
  cases h with
  | malformed => exact .malformed
  | tooDeep deep => exact .tooDeep (Nat.lt_of_lt_of_le deep hdepth)
  | tooManyDigits inside digits long =>
    exact .tooManyDigits (inside.trans hpart.isInfix) digits long

/-- The error of what is left after some parts of the whole. -/
theorem error_of_rest {e : ReadError} (h : Explained d depth t (.error e : Read α))
    (hrest : t <:+ s) : Explained d depth s (.error e : Read β) :=
  h.error_of_part hrest (Nat.add_le_add_left (openings_mono hrest) _)

/-- A value that follows some parts of the whole. -/
theorem of_rest {r : Read α} (h : Explained d depth t r) (hrest : t <:+ s) :
    Explained d depth s r := by
  cases h with
  | ok suffix => exact .ok (suffix.trans hrest)
  | malformed => exact .malformed
  | tooDeep deep => exact error_of_rest (α := α) (.tooDeep deep) hrest
  | tooManyDigits inside digits long =>
    exact error_of_rest (α := α) (.tooManyDigits inside digits long) hrest

/-- The error inside an array or object: the bracket in front of it makes up for the greater
depth. -/
theorem error_inside {c : Char} {rest : List Char} {e : ReadError}
    (hc : (c == '[' || c == '\x7b') = true)
    (h : Explained d (depth + 1) (skipGap rest) (.error e : Read α)) :
    Explained d depth (c :: rest) (.error e : Read β) := by
  have hgap := suffix_skipGap rest
  have hopenings : openings (c :: rest) = openings rest + 1 := List.countP_cons_of_pos hc
  have hmono := openings_mono hgap
  exact h.error_of_part (hgap.trans (List.suffix_cons _ _)) (by omega)

end Explained

variable {depth fuel : Nat} {s : List Char}

theorem explained_unsigned (d : Dialect τ) (negative : Bool) (depth : Nat) (s : List Char) :
    Explained d depth s (unsigned d negative s) := by
  unfold unsigned
  split
  · exact .malformed
  · rename_i whole rest hwhole
    have hrest : rest <:+ s := by
      rw [eq_append_of_wholePart? hwhole]
      exact List.suffix_append _ _
    have hlast : (exponent (fraction rest).2).2 <:+ s :=
      ((suffix_exponent _).trans (suffix_fraction _)).trans hrest
    simp only
    split
    · rename_i hlong
      have hinside : whole <:+: s := by
        rw [eq_append_of_wholePart? hwhole]
        exact (List.prefix_append _ _).isInfix
      simp only [Bool.and_eq_true, decide_eq_true_eq] at hlong
      exact .tooManyDigits hinside (isDigit_of_wholePart? hwhole) hlong.1
    · split
      · exact .ok hlast
      · exact .ok hlast

theorem explained_number (d : Dialect τ) (depth : Nat) (s : List Char) :
    Explained d depth s (number d s) := by
  unfold number
  split
  · split
    · rename_i hdrop
      rw [eq_append_of_dropWord? hdrop]
      exact .ok ((List.suffix_append _ _).trans (List.suffix_cons _ _))
    · exact (explained_unsigned d true depth _).of_rest (List.suffix_cons _ _)
  · exact explained_unsigned d false depth s

variable [BEq τ]

/-- What the readers give with some fuel is explained. -/
structure Explains (d : Dialect τ) (fuel : Nat) : Prop where
  value : ∀ depth s, Explained d depth s (value d fuel depth s)
  items : ∀ depth s, Explained d depth s (items d fuel depth s)
  members : ∀ depth before s, Explained d depth s (members d fuel depth before s)

namespace Explains

theorem of_value (h : Explains d fuel) {r : Read (Json τ)} (hread : Json.value d fuel depth s = r) :
    Explained d depth s r :=
  hread ▸ h.value depth s

theorem of_items (h : Explains d fuel) {r : Read (List (Json τ))}
    (hread : Json.items d fuel depth s = r) : Explained d depth s r :=
  hread ▸ h.items depth s

theorem of_members (h : Explains d fuel) {before : List (τ × Json τ)}
    {r : Read (List (τ × Json τ))} (hread : Json.members d fuel depth before s = r) :
    Explained d depth s r :=
  hread ▸ h.members depth before s

theorem value_succ (ih : Explains d fuel) {r : Read (Json τ)} (h : ValueStep d fuel depth s r) :
    Explained d depth s r := by
  have htooDeep {c : Char} {more : List Char} {array : Bool}
      (hc : (c == '[' || c == '\x7b') = true) (hdepth : d.depth ≤ depth) :
      Explained (α := Json τ) d depth (c :: more) (.error (.tooDeep array)) := by
    -- The opening at which the reader gives up counts itself.
    have hopenings : openings (c :: more) = openings more + 1 := List.countP_cons_of_pos hc
    exact .tooDeep (by omega)
  have hinside {c : Char} (more : List Char) : skipGap more <:+ c :: more :=
    (suffix_skipGap more).trans (List.suffix_cons c more)
  cases h with
  | text text => exact .ok ((suffix_of_text? text).trans (List.suffix_cons _ _))
  | noText => exact .malformed
  | deepArray deep => exact htooDeep rfl deep
  | emptyArray shallow close => exact .ok ((suffix_of_skipGap close).trans (List.suffix_cons _ _))
  | array shallow filled items => exact .ok ((ih.of_items items).suffix.trans (hinside _))
  | noItems shallow filled items => exact (ih.of_items items).error_inside rfl
  | deepObject deep => exact htooDeep rfl deep
  | emptyObject shallow close => exact .ok ((suffix_of_skipGap close).trans (List.suffix_cons _ _))
  | object shallow filled members => exact .ok ((ih.of_members members).suffix.trans (hinside _))
  | noMembers shallow filled members => exact (ih.of_members members).error_inside rfl
  | word plain word => exact .ok (suffix_of_word? word)
  | number plain word number => exact number ▸ explained_number d depth s

theorem items_succ (ih : Explains d fuel) {r : Read (List (Json τ))}
    (h : ItemsStep d fuel depth s r) : Explained d depth s r := by
  cases h with
  | noValue value => exact (ih.of_value value).error_of_rest List.suffix_rfl
  | last value close => exact .ok ((suffix_of_skipGap close).trans (ih.of_value value).suffix)
  | cons value comma items =>
    exact .ok ((ih.of_items items).suffix.trans
      ((suffix_after_skipGap comma).trans (ih.of_value value).suffix))
  | noItems value comma items =>
    exact (ih.of_items items).error_of_rest
      ((suffix_after_skipGap comma).trans (ih.of_value value).suffix)
  | noSign => exact .malformed

theorem members_succ (ih : Explains d fuel) {before : List (τ × Json τ)}
    {r : Read (List (τ × Json τ))} (h : MembersStep d fuel depth before s r) :
    Explained d depth s r := by
  -- what is left after the name and its colon
  have hafter {more rest after : List Char} {name : τ} (named : d.text? more = some (name, rest))
      (colon : skipGap rest = ':' :: after) : skipGap after <:+ '\x22' :: more :=
    (suffix_after_skipGap colon).trans ((suffix_of_text? named).trans (List.suffix_cons _ _))
  cases h with
  | noQuote => exact .malformed
  | noName => exact .malformed
  | noColon => exact .malformed
  | noValue named colon value => exact (ih.of_value value).error_of_rest (hafter named colon)
  | last named colon value close =>
    exact .ok ((suffix_of_skipGap close).trans
      ((ih.of_value value).suffix.trans (hafter named colon)))
  | cons named colon value comma members =>
    exact (ih.of_members members).of_rest ((suffix_after_skipGap comma).trans
      ((ih.of_value value).suffix.trans (hafter named colon)))
  | noSign => exact .malformed

end Explains

theorem explains (d : Dialect τ) (fuel : Nat) : Explains d fuel := by
  induction fuel with
  | zero =>
    refine ⟨fun depth s => ?_, fun depth s => ?_, fun depth before s => ?_⟩
    · rw [value_zero]
      exact .malformed
    · rw [items_zero]
      exact .malformed
    · rw [members_zero]
      exact .malformed
  | succ fuel ih =>
    exact ⟨fun depth s => ih.value_succ (value_step d fuel depth s),
      fun depth s => ih.items_succ (items_step d fuel depth s),
      fun depth before s => ih.members_succ (members_step d fuel depth before s)⟩

/-- The error of a text as a whole. -/
theorem explained_of_parse_error {e : ReadError} (h : parse d s = .error e) :
    Explained d 0 s (.error e : Read (Json τ)) := by
  have hvalue := (explains d (2 * s.length + 1)).value 0 (skipGap s)
  unfold parse at h
  split at h
  · split at h
    · cases h
    · obtain rfl := Except.error.inj h
      exact .malformed
  · rename_i herror
    obtain rfl := Except.error.inj h
    rw [herror] at hvalue
    exact hvalue.error_of_rest (suffix_skipGap s)

/-- **A text that is too deep opens more arrays and objects than may stand in one another.** -/
theorem of_parse_tooDeep {array : Bool} (h : parse d s = .error (.tooDeep array)) :
    d.depth < openings s := by
  cases explained_of_parse_error h with
  | tooDeep deep => rwa [Nat.zero_add] at deep

/-- **A number with too many digits is a row of them in the text.** -/
theorem of_parse_tooManyDigits {digits : Nat} (h : parse d s = .error (.tooManyDigits digits)) :
    longest < digits ∧
      ∃ run, run <:+: s ∧ run.length = digits ∧ ∀ c ∈ run, isDigit c = true := by
  cases explained_of_parse_error h with
  | tooManyDigits inside digits long => exact ⟨long, _, inside, rfl, digits⟩

end WorkspaceAudit.Json
