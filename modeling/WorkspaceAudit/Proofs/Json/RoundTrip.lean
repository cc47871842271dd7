import WorkspaceAudit.Json.Printer
import WorkspaceAudit.Proofs.Json.Steps
import WorkspaceAudit.Proofs.Text.Decimal

/-!
# What is written is read back

- `textBody?_writeChar`: one character of a text, written as it is or by an escape;
  `text?_writeText`: a whole text.
- `number_ofInt`: a whole number that is not too long.
- `Faithful n v`: `v` has no binary fractions, no number that is too long, no name twice in an
  object, and at most `n` containers in one another.
- `Faithful.rereads`: such a value is read back from what is written of it, with anything after it
  that does not go on with a number; `parse_write`: so is a whole text.
- `Faithful.clean`: no control characters but line feeds are written.
-/

namespace WorkspaceAudit.Json

open Text.Decimal

/-! ## Texts -/

theorem hexValue?_hexDigit : ∀ n < 16, hexValue? (Text.hexDigit n) = some n := by decide

/-- Four hexadecimal digits are read as the number that they write. -/
theorem hexUnit?_hex {unit : Nat} (h : unit < 0x10000) (rest : List Char) :
    hexUnit? (Text.hex 4 unit ++ rest) = some (unit, rest) := by
  have hdigit (n : Nat) : hexValue? (Text.hexDigit (n % 16)) = some (n % 16) :=
    hexValue?_hexDigit _ (Nat.mod_lt _ (by decide))
  have hhex : Text.hex 4 unit = [Text.hexDigit (unit / 4096 % 16), Text.hexDigit (unit / 256 % 16),
      Text.hexDigit (unit / 16 % 16), Text.hexDigit (unit / 1 % 16)] := rfl
  rw [hhex]
  simp only [List.cons_append, List.nil_append, hexUnit?, hdigit, Option.bind_eq_bind,
    Option.bind_some, Option.pure_def, Option.some.injEq, Prod.mk.injEq, and_true]
  omega

/-- The code of a character is not one of half a pair. -/
theorem not_half (c : Char) : c.toNat < 0xd800 ∨ 0xdfff < c.toNat := by
  rcases c.valid with h | h
  · exact .inl h
  · exact .inr h.1

/-- A unit that is no half of a pair stands for its character. -/
theorem escape?_unitEscape {c : Char} (h : c.toNat < 0x10000) (rest : List Char) :
    escape? ('u' :: Text.hex 4 c.toNat ++ rest) = some (.char c, rest) := by
  have hhalf := not_half c
  have hunit : unitPoint? c.toNat rest = some (.ofUnit c.toNat, rest) := by
    unfold unitPoint?
    rw [if_neg]
    simp only [Bool.and_eq_true, decide_eq_true_eq]
    omega
  have hpoint : Point.ofUnit c.toNat = .char c := by
    rw [Point.ofUnit, dif_neg (by omega), Char.ofNat_toNat]
  simp only [List.cons_append, escape?, hexUnit?_hex h, Option.bind_eq_bind, Option.bind_some,
    hunit, hpoint]

/-- A pair of units stands for its character. -/
theorem escape?_unitEscapes {c : Char} (h : 0x10000 ≤ c.toNat) (rest : List Char) :
    escape? ('u' :: Text.hex 4 (0xd800 + (c.toNat - 0x10000) / 0x400) ++
      (unitEscape (0xdc00 + (c.toNat - 0x10000) % 0x400) ++ rest)) = some (.char c, rest) := by
  have hgreatest : c.toNat < 0x110000 := by
    rcases c.valid with hv | hv
    · exact Nat.lt_trans hv (by decide)
    · exact hv.2
  have hcode : 0x10000 + (0xd800 + (c.toNat - 0x10000) / 0x400 - 0xd800) * 0x400 +
      (0xdc00 + (c.toNat - 0x10000) % 0x400 - 0xdc00) = c.toNat := by omega
  simp only [List.cons_append, escape?, unitEscape, Option.bind_eq_bind]
  rw [hexUnit?_hex (by omega), Option.bind_some]
  unfold unitPoint?
  rw [if_pos (by simp; omega)]
  simp only [Option.bind_eq_bind]
  rw [hexUnit?_hex (by omega), Option.bind_some, if_pos (by simp; omega), hcode, Char.ofNat_toNat]
  rfl

/-- A character is written by an escape that stands for it, or as it is. -/
theorem writeChar_cases (basicLatin : Bool) (c : Char) :
    (∃ s, writeChar basicLatin c = '\\' :: s ∧
      ∀ rest, escape? (s ++ rest) = some (.char c, rest)) ∨
    (writeChar basicLatin c = [c] ∧ c ≠ '\x22' ∧ c ≠ '\\' ∧ 32 ≤ c.toNat) := by
  by_cases hsimple : c ∈ ['\x22', '\\', '\n', '\r', '\t', '\x08', '\x0c']
  · left
    simp only [List.mem_cons, List.not_mem_nil, or_false] at hsimple
    rcases hsimple with rfl | rfl | rfl | rfl | rfl | rfl | rfl <;> exact ⟨_, rfl, fun _ => rfl⟩
  · simp only [List.mem_cons, List.not_mem_nil, or_false, not_or] at hsimple
    obtain ⟨hquote, hbackslash, hn, hr, ht, hb, hf⟩ := hsimple
    simp only [writeChar, beq_iff_eq, hquote, hbackslash, hn, hr, ht, hb, hf, if_false]
    by_cases hcontrol : c.toNat < 32
    · rw [if_pos hcontrol]
      exact .inl ⟨_, rfl, escape?_unitEscape (by omega)⟩
    · rw [if_neg hcontrol]
      by_cases hunits : (basicLatin && decide (127 ≤ c.toNat)) = true
      · left
        rw [if_pos hunits, unitEscapes]
        by_cases hbasic : c.toNat < 0x10000
        · rw [if_pos hbasic]
          exact ⟨_, rfl, escape?_unitEscape hbasic⟩
        · rw [if_neg hbasic]
          refine ⟨_, rfl, fun rest => ?_⟩
          rw [← escape?_unitEscapes (Nat.le_of_not_lt hbasic) rest]
          simp
      · rw [if_neg hunits]
        exact .inr ⟨rfl, hquote, hbackslash, Nat.le_of_not_lt hcontrol⟩

/-- **A character is read back from what is written of it.** -/
theorem textBody?_writeChar (basicLatin : Bool) (c : Char) (fuel : Nat) (rest : List Char) :
    textBody? (fuel + 1) (writeChar basicLatin c ++ rest) =
      (textBody? fuel rest).map fun (ps, rest) => (.char c :: ps, rest) := by
  rcases writeChar_cases basicLatin c with
    ⟨s, hwritten, hescape⟩ | ⟨hwritten, hquote, hbackslash, hcode⟩
  · have hnot : ('\\' == '\x22') = false := by decide
    simp only [hwritten, List.cons_append, textBody?, hescape, hnot, beq_self_eq_true, if_true,
      Bool.false_eq_true, if_false, Option.bind_eq_bind, Option.bind_some]
    cases textBody? fuel rest <;> rfl
  · simp only [hwritten, List.cons_append, List.nil_append, textBody?, beq_iff_eq, hquote,
      hbackslash, if_false, Nat.not_lt.2 hcode]
    cases textBody? fuel rest <;> rfl

theorem writeChar_ne_nil (basicLatin : Bool) (c : Char) : writeChar basicLatin c ≠ [] := by
  rcases writeChar_cases basicLatin c with ⟨s, hwritten, -⟩ | ⟨hwritten, -⟩ <;> simp [hwritten]

theorem length_le_flatMap_writeChar (basicLatin : Bool) (s : List Char) :
    s.length ≤ (s.flatMap (writeChar basicLatin)).length := by
  induction s with
  | nil => exact Nat.le_refl 0
  | cons c s ih =>
    have hpos := List.length_pos_iff.2 (writeChar_ne_nil basicLatin c)
    simp only [List.flatMap_cons, List.length_append, List.length_cons]
    omega

theorem textBody?_flatMap (basicLatin : Bool) {fuel : Nat} {s : List Char} (h : s.length < fuel)
    (rest : List Char) : textBody? fuel (s.flatMap (writeChar basicLatin) ++ '\x22' :: rest) =
      some (s.map .char, rest) := by
  induction s generalizing fuel with
  | nil =>
    obtain ⟨fuel, rfl⟩ : ∃ k, fuel = k + 1 := ⟨fuel - 1, by simp at h; omega⟩
    rfl
  | cons c s ih =>
    obtain ⟨fuel, rfl⟩ : ∃ k, fuel = k + 1 := ⟨fuel - 1, by simp at h; omega⟩
    rw [List.flatMap_cons, List.append_assoc, textBody?_writeChar, ih (by simpa using h)]
    rfl

/-- A text without halves that stand alone is whole. -/
theorem whole?_ofString (s : String) : (LooseText.ofString s).whole? = some s := by
  have hchars : ∀ cs : List Char, (cs.map Point.char).mapM Point.char? = some cs := by
    intro cs
    induction cs with
    | nil => rfl
    | cons c cs ih => simp [Point.char?, ih]
  simp [LooseText.whole?, LooseText.ofString, hchars]

/-- **A text is read back from what is written of it**, after its opening quote. -/
theorem text?_writeText (basicLatin : Bool) (s : String) (rest : List Char) :
    Dialect.own.text? (s.toList.flatMap (writeChar basicLatin) ++ '\x22' :: rest) =
      some (s, rest) := by
  have hlength := length_le_flatMap_writeChar basicLatin s.toList
  have hbody : text? (s.toList.flatMap (writeChar basicLatin) ++ '\x22' :: rest) =
      some (LooseText.ofString s, rest) := by
    rw [text?, textBody?_flatMap]
    · rfl
    · simp only [List.length_append, List.length_cons]
      omega
  have haccept : Dialect.own.accept? (LooseText.ofString s) = some s := whole?_ofString s
  simp [Dialect.text?, hbody, haccept]

/-! ## Numbers -/

/-- The text does not go on with a digit, a fraction or an exponent. -/
def EndsNumber (rest : List Char) : Prop :=
  ∀ c ∈ rest.head?, isDigit c = false ∧ c ≠ '.' ∧ c ≠ 'e' ∧ c ≠ 'E'

theorem EndsNumber.endsDigits {rest : List Char} (h : EndsNumber rest) : EndsDigits rest :=
  fun c hc => (h c hc).1

theorem EndsNumber.fraction_eq {rest : List Char} (h : EndsNumber rest) :
    fraction rest = (none, rest) := by
  unfold fraction
  split
  · exact absurd rfl (h '.' rfl).2.1
  · rfl

theorem EndsNumber.exponent_eq {rest : List Char} (h : EndsNumber rest) :
    exponent rest = (none, rest) := by
  cases rest with
  | nil => rfl
  | cons c rest =>
    obtain ⟨-, -, hsmall, hcapital⟩ := h c rfl
    have hno : (c == 'e' || c == 'E') = false := by simp [hsmall, hcapital]
    unfold exponent
    split <;> simp_all

theorem wholePart?_digits (n : Nat) {rest : List Char} (h : EndsDigits rest) :
    wholePart? (digits n ++ rest) = some (digits n, rest) := by
  by_cases hzero : n = 0
  · subst hzero
    rfl
  · have hhead := head?_digits_ne_zero (Nat.pos_of_ne_zero hzero)
    have hspan := span_isDigit (fun c => isDigit_of_mem_digits (n := n)) h
    cases hdigits : digits n with
    | nil => exact absurd hdigits (digits_ne_nil n)
    | cons c ds =>
      rw [hdigits] at hhead hspan
      unfold wholePart?
      split
      · simp_all
      · rw [hspan]

/-- The digits of a number that is not too long are read as that number. -/
theorem unsigned_digits {τ : Type} (d : Dialect τ) (negative : Bool) {n : Nat} (hn : n < bound)
    {rest : List Char} (hrest : EndsNumber rest) : unsigned d negative (digits n ++ rest) =
      .ok (.int (if negative then -(n : Int) else n), rest) := by
  have hlength := length_digits_le_longest hn
  simp [unsigned, wholePart?_digits n hrest.endsDigits, hrest.fraction_eq, hrest.exponent_eq,
    Nat.not_lt.2 hlength, value_digits]

/-- **A whole number that is not too long is read back.** -/
theorem number_ofInt {τ : Type} (d : Dialect τ) {n : Int} (hn : isWritable n = true)
    {rest : List Char} (hrest : EndsNumber rest) :
    number d ((ofInt n).toList ++ rest) = .ok (.int n, rest) := by
  have hbound : n.natAbs < bound := by simpa [isWritable] using hn
  cases n with
  | ofNat n =>
    have hwritten : (ofInt (.ofNat n)).toList = digits n := by simp [ofInt, ofNat]
    have hunsigned := unsigned_digits d false (n := n) hbound hrest
    obtain ⟨c, ds, hdigits, hc⟩ := exists_digits_eq_cons n
    rw [hdigits] at hunsigned
    rw [hwritten, hdigits]
    unfold number
    split
    · -- A minus is no digit.
      rename_i heq
      obtain ⟨rfl, -⟩ := List.cons.inj heq
      exact absurd hc (by decide)
    · exact hunsigned
  | negSucc n =>
    have hwritten : (ofInt (.negSucc n)).toList = '-' :: digits (n + 1) := by simp [ofInt, ofNat]
    have hunsigned := unsigned_digits d true (n := n + 1) hbound hrest
    obtain ⟨c, ds, hdigits, hc⟩ := exists_digits_eq_cons (n + 1)
    -- After a minus, the reader first tries the word `Infinity`.
    have hword : dropWord? "Infinity".toList (c :: ds ++ rest) = none := by
      have hne : 'I' ≠ c := by
        rintro rfl
        exact absurd hc (by decide)
      simp [dropWord?, hne]
    rw [hdigits] at hunsigned
    rw [hwritten, hdigits, List.cons_append]
    simp only [number, hword, hunsigned]
    rfl

/-! ## Gaps -/

/-- The text is all blanks between parts of a value. -/
def Gap (s : List Char) : Prop := ∀ c ∈ s, isGap c = true

theorem gap_nil : Gap [] := fun _ h => nomatch h

theorem Gap.skipGap_append {gap : List Char} (h : Gap gap) (s : List Char) :
    skipGap (gap ++ s) = skipGap s :=
  List.dropWhile_append_of_pos h

theorem skipGap_cons {c : Char} (h : isGap c = false) (s : List Char) :
    skipGap (c :: s) = c :: s := by
  simp [skipGap, h]

theorem gap_lineBreak (f : Format) (depth : Nat) : Gap (f.lineBreak depth) := by
  intro c hc
  rw [Format.lineBreak] at hc
  split at hc
  · rcases List.mem_cons.1 hc with rfl | hc
    · decide
    · rw [List.eq_of_mem_replicate hc]
      decide
  · cases hc

/-- What stands between the parts of a container: a comma and a gap. -/
def Format.separator (f : Format) (depth : Nat) : List Char :=
  ',' :: ((if f.indented then [] else [' ']) ++ f.lineBreak depth)

theorem gap_separator (f : Format) (depth : Nat) :
    Gap ((if f.indented then [] else [' ']) ++ f.lineBreak depth) := by
  intro c hc
  rcases List.mem_append.1 hc with hc | hc
  · split at hc
    · cases hc
    · rw [List.mem_singleton.1 hc]
      decide
  · exact gap_lineBreak f depth c hc

theorem enclose_cons (f : Format) (depth : Nat) (opening closing : Char) (part : List Char)
    (parts : List (List Char)) : f.enclose depth opening closing (part :: parts) =
      opening :: (f.lineBreak (depth + 1) ++
        (Text.joinWith (f.separator (depth + 1)) (part :: parts) ++
          (f.lineBreak depth ++ [closing]))) := by
  rw [Format.enclose, Format.separator]
  · cases f.indented <;> simp
  · simp

/-! ## Values -/

/-- The value has no binary fractions, no number that is too long, no name twice in an object, and
at most `n` containers in one another. -/
inductive Faithful : Nat → Json → Prop where
  | null {n : Nat} : Faithful n .null
  | bool {n : Nat} {b : Bool} : Faithful n (.bool b)
  | int {n : Nat} {i : Int} (h : isWritable i = true) : Faithful n (.int i)
  | string {n : Nat} {s : String} : Faithful n (.string s)
  | array {n : Nat} {items : List Json} (h : ∀ v ∈ items, Faithful n v) :
    Faithful (n + 1) (.array items)
  | object {n : Nat} {members : List (String × Json)} (hnames : (members.map Prod.fst).Nodup)
    (h : ∀ m ∈ members, Faithful n m.2) : Faithful (n + 1) (.object members)

/-- What begins a value: no blank and no closing bracket. -/
def Opens (s : List Char) : Prop :=
  ∃ c rest, s = c :: rest ∧ isGap c = false ∧ c ≠ ']' ∧ c ≠ '\x7d'

theorem isGap_of_isDigit {c : Char} (h : isDigit c = true) :
    isGap c = false ∧ c ≠ ']' ∧ c ≠ '\x7d' := by
  refine ⟨?_, ?_, ?_⟩
  · rw [Bool.eq_false_iff]
    intro hgap
    simp only [isGap, Bool.or_eq_true, beq_iff_eq] at hgap
    rcases hgap with ((rfl | rfl) | rfl) | rfl <;> exact absurd h (by decide)
  all_goals
    rintro rfl
    exact absurd h (by decide)

theorem opens_ofInt (n : Int) : Opens (ofInt n).toList := by
  cases n with
  | ofNat n =>
    obtain ⟨c, ds, hdigits, hc⟩ := exists_digits_eq_cons n
    exact ⟨c, ds, by simp [ofInt, ofNat, hdigits], isGap_of_isDigit hc⟩
  | negSucc n => exact ⟨'-', digits (n + 1), by simp [ofInt, ofNat], by decide⟩

theorem opens_enclose (f : Format) (depth : Nat) {opening closing : Char}
    (h : isGap opening = false ∧ opening ≠ ']' ∧ opening ≠ '\x7d') (parts : List (List Char)) :
    Opens (f.enclose depth opening closing parts) := by
  cases parts with
  | nil => exact ⟨opening, [closing], rfl, h⟩
  | cons part parts => exact ⟨opening, _, enclose_cons .., h⟩

theorem Faithful.opens {n : Nat} {v : Json} (h : Faithful n v) (f : Format) (depth : Nat) :
    Opens (write f depth v) := by
  cases h with
  | null => exact ⟨'n', _, rfl, by decide⟩
  | bool => cases ‹Bool› <;> exact ⟨_, _, rfl, by decide⟩
  | int => exact opens_ofInt _
  | string => exact ⟨'\x22', _, rfl, by decide⟩
  | array => exact opens_enclose f depth (by decide) _
  | object => exact opens_enclose f depth (by decide) _

/-- The value is read back from what is written of it at any depth, with enough fuel. -/
def Rereads (f : Format) (n : Nat) (v : Json) : Prop :=
  ∀ {fuel depth level : Nat} {rest : List Char}, (write f level v).length < fuel →
    depth + n ≤ Dialect.own.depth → EndsNumber rest →
      value .own fuel depth (write f level v ++ rest) = .ok (v, rest)

theorem exists_succ_of_lt {a fuel : Nat} (h : a < fuel) : ∃ k, fuel = k + 1 :=
  ⟨fuel - 1, by omega⟩

variable {f : Format} {n fuel depth level : Nat} {rest gap : List Char}

theorem rereads_null : Rereads f n .null := by
  intro fuel depth level rest hfuel _ _
  obtain ⟨fuel, rfl⟩ := exists_succ_of_lt hfuel
  have hword : word? (write f level .null ++ rest) = some ((.null : Json String), rest) := by
    simp [write, word?, words, dropWord?]
  exact (ValueStep.word (beginsPlain_cons (c := 'n') (by decide) _) hword).eq

theorem rereads_bool (b : Bool) : Rereads f n (.bool b) := by
  intro fuel depth level rest hfuel _ _
  obtain ⟨fuel, rfl⟩ := exists_succ_of_lt hfuel
  have hword : word? (write f level (.bool b) ++ rest) = some ((.bool b : Json String), rest) := by
    cases b <;> simp [write, word?, words, dropWord?]
  refine (ValueStep.word ?_ hword).eq
  cases b with
  | false => exact beginsPlain_cons (c := 'f') (by decide) _
  | true => exact beginsPlain_cons (c := 't') (by decide) _

/-- A digit or a minus begins a number. -/
theorem value_eq_number {c : Char} (hc : isDigit c = true ∨ c = '-') (s : List Char) :
    value .own (fuel + 1) depth (c :: s) = number .own (c :: s) := by
  have hne : ∀ e ∈ ['\x22', '[', '\x7b', 'n', 't', 'f', 'N', 'I'], e ≠ c := by
    intro e he
    rintro rfl
    simp only [List.mem_cons, List.not_mem_nil, or_false] at he
    rcases he with rfl | rfl | rfl | rfl | rfl | rfl | rfl | rfl <;> exact absurd hc (by decide)
  have hplain : c ∉ ['\x22', '[', '\x7b'] := fun hmem =>
    hne c (List.mem_append_left ['n', 't', 'f', 'N', 'I'] hmem) rfl
  have hword : word? (τ := String) (c :: s) = none := by
    simp [word?, words, dropWord?, hne]
  exact (ValueStep.number (beginsPlain_cons hplain s) hword rfl).eq

theorem rereads_int {i : Int} (h : isWritable i = true) : Rereads f n (.int i) := by
  intro fuel depth level rest hfuel _ hrest
  obtain ⟨fuel, rfl⟩ := exists_succ_of_lt hfuel
  have hnumber := number_ofInt .own h hrest
  have hwritten : write f level (.int i) = (ofInt i).toList := rfl
  rw [hwritten, ← hnumber]
  cases i with
  | ofNat k =>
    obtain ⟨c, ds, hdigits, hc⟩ := exists_digits_eq_cons k
    have heq : (ofInt (.ofNat k)).toList = c :: ds := by simp [ofInt, ofNat, hdigits]
    rw [heq, List.cons_append]
    exact value_eq_number (.inl hc) _
  | negSucc k =>
    have heq : (ofInt (.negSucc k)).toList = '-' :: digits (k + 1) := by simp [ofInt, ofNat]
    rw [heq, List.cons_append]
    exact value_eq_number (.inr rfl) _

theorem rereads_string (s : String) : Rereads f n (.string s) := by
  intro fuel depth level rest hfuel _ _
  obtain ⟨fuel, rfl⟩ := exists_succ_of_lt hfuel
  have hwritten : write f level (.string s) ++ rest =
      '\x22' :: (s.toList.flatMap (writeChar f.basicLatin) ++ '\x22' :: rest) := by
    simp [write, writeText]
  rw [hwritten]
  exact (ValueStep.text (text?_writeText ..)).eq

theorem endsNumber_cons {c : Char} (h : isDigit c = false ∧ c ≠ '.' ∧ c ≠ 'e' ∧ c ≠ 'E')
    (s : List Char) : EndsNumber (c :: s) := by
  intro d hd
  obtain rfl : c = d := by simpa using hd
  exact h

theorem not_isDigit_of_isGap {c : Char} (h : isGap c = true) :
    isDigit c = false ∧ c ≠ '.' ∧ c ≠ 'e' ∧ c ≠ 'E' := by
  simp only [isGap, Bool.or_eq_true, beq_iff_eq] at h
  rcases h with ((rfl | rfl) | rfl) | rfl <;> decide

/-- A gap or a closing bracket ends a number. -/
theorem Gap.endsNumber (hgap : Gap gap) {c : Char}
    (h : isDigit c = false ∧ c ≠ '.' ∧ c ≠ 'e' ∧ c ≠ 'E') : EndsNumber (gap ++ c :: rest) := by
  cases gap with
  | nil => exact endsNumber_cons h rest
  | cons g gap => exact endsNumber_cons (not_isDigit_of_isGap (hgap g List.mem_cons_self)) _

theorem Opens.append {s : List Char} (h : Opens s) (rest : List Char) : Opens (s ++ rest) := by
  obtain ⟨c, t, rfl, hc⟩ := h
  exact ⟨c, _, List.cons_append, hc⟩

theorem Opens.skipGap_append {s : List Char} (h : Opens s) (rest : List Char) :
    skipGap (s ++ rest) = s ++ rest := by
  obtain ⟨c, t, rfl, hc, -⟩ := h
  exact skipGap_cons hc _

theorem joinWith_cons_cons (sep part next : List Char) (parts : List (List Char)) :
    Text.joinWith sep (part :: next :: parts) =
      part ++ (sep ++ Text.joinWith sep (next :: parts)) := by
  simp [Text.joinWith]

theorem Opens.joinWith {part : List Char} (h : Opens part) (sep : List Char)
    (parts : List (List Char)) : Opens (Text.joinWith sep (part :: parts)) := by
  cases parts with
  | nil => exact h
  | cons next parts =>
    obtain ⟨c, t, rfl, hc⟩ := h
    exact ⟨c, _, joinWith_cons_cons .., hc⟩

theorem exists_separator_eq (f : Format) (level : Nat) :
    ∃ gap, Gap gap ∧ f.separator level = ',' :: gap :=
  ⟨_, gap_separator f level, rfl⟩

/-- **A row of values is read back** up to the closing bracket. -/
theorem items_write {vs : List Json} (hvs : ∀ v ∈ vs, Faithful n v ∧ Rereads f n v)
    (hne : vs ≠ []) (hgap : Gap gap)
    (hfuel : (Text.joinWith (f.separator level) (writeItems f level vs)).length + 1 < fuel)
    (hdepth : depth + n ≤ Dialect.own.depth) :
    items .own fuel depth (Text.joinWith (f.separator level) (writeItems f level vs) ++
      (gap ++ ']' :: rest)) = .ok (vs, rest) := by
  induction vs generalizing fuel with
  | nil => exact absurd rfl hne
  | cons v vs ih =>
    obtain ⟨fuel, rfl⟩ := exists_succ_of_lt hfuel
    obtain ⟨-, hv⟩ := hvs v List.mem_cons_self
    cases vs with
    | nil =>
      simp only [writeItems, Text.joinWith] at hfuel ⊢
      refine (ItemsStep.last (hv (by omega) hdepth (hgap.endsNumber (by decide))) ?_).eq
      rw [hgap.skipGap_append, skipGap_cons (by decide)]
    | cons w vs =>
      obtain ⟨between, hbetween, hsep⟩ := exists_separator_eq f level
      have hrow : Text.joinWith (f.separator level) (writeItems f level (v :: w :: vs)) =
          write f level v ++ (',' :: between ++
            Text.joinWith (f.separator level) (writeItems f level (w :: vs))) := by
        rw [← hsep]
        exact joinWith_cons_cons ..
      have hopens : Opens (Text.joinWith (f.separator level) (writeItems f level (w :: vs))) :=
        ((hvs w (by simp)).1.opens f level).joinWith _ _
      rw [hrow] at hfuel ⊢
      simp only [List.length_append, List.length_cons] at hfuel
      have hlength : (Text.joinWith (f.separator level) (writeItems f level (w :: vs))).length + 1 <
          fuel := by omega
      have hmore := ih (fun u hu => hvs u (List.mem_cons_of_mem v hu)) (by simp) hlength
      rw [List.append_assoc, List.append_assoc, List.cons_append]
      refine (ItemsStep.cons (hv (by omega) hdepth (endsNumber_cons (by decide) _))
        (skipGap_cons (by decide) _) ?_).eq
      rw [hbetween.skipGap_append, hopens.skipGap_append, hmore]

/-! ## Members -/

/-- A member of a name that is not there yet comes last. -/
theorem putMember_of_not_mem {before : List (String × Json)} {name : String} {v : Json}
    (h : name ∉ before.map Prod.fst) : putMember name v before = before ++ [(name, v)] := by
  induction before with
  | nil => rfl
  | cons m before ih =>
    obtain ⟨hname, hbefore⟩ := not_or.1 (mt List.mem_cons.2 h)
    have hne : (m.1 == name) = false := by simpa using Ne.symm hname
    obtain ⟨other, w⟩ := m
    simp only [putMember, hne, Bool.false_eq_true, if_false, ih hbefore, List.cons_append]

/-- What is written of a member. -/
def writeMember (f : Format) (level : Nat) (m : String × Json) : List Char :=
  writeText f.basicLatin m.1 ++ ':' :: ' ' :: write f level m.2

theorem writeMembers_eq_map (ms : List (String × Json)) :
    writeMembers f level ms = ms.map (writeMember f level) := by
  induction ms with
  | nil => rfl
  | cons m ms ih => rw [writeMembers, ih, List.map_cons, writeMember]

theorem opens_writeMember (m : String × Json) : Opens (writeMember f level m) :=
  ⟨'\x22', _, rfl, by decide⟩

/-- One member is read, and the reader goes on after it. -/
theorem members_writeMember {m : String × Json} (hm : Faithful n m.2 ∧ Rereads f n m.2)
    {before : List (String × Json)} (hfuel : (writeMember f level m).length < fuel + 1)
    (hdepth : depth + n ≤ Dialect.own.depth) (hrest : EndsNumber rest) :
    (∀ more, skipGap rest = '\x7d' :: more →
      members .own (fuel + 1) depth before (writeMember f level m ++ rest) =
        .ok (putMember m.1 m.2 before, more)) ∧
    ∀ more, skipGap rest = ',' :: more →
      members .own (fuel + 1) depth before (writeMember f level m ++ rest) =
        members .own fuel depth (putMember m.1 m.2 before) (skipGap more) := by
  obtain ⟨name, v⟩ := m
  have htext : writeMember f level (name, v) ++ rest =
      '\x22' :: (name.toList.flatMap (writeChar f.basicLatin) ++
        '\x22' :: ':' :: ' ' :: (write f level v ++ rest)) := by
    simp [writeMember, writeText]
  have hskip : skipGap (' ' :: (write f level v ++ rest)) = write f level v ++ rest :=
    (hm.1.opens f level).skipGap_append rest
  have hlength : (write f level v).length < fuel := by
    simp only [writeMember, writeText, List.length_append, List.length_cons] at hfuel
    omega
  have hcolon : skipGap (':' :: ' ' :: (write f level v ++ rest)) =
      ':' :: ' ' :: (write f level v ++ rest) := skipGap_cons (by decide) _
  have hvalue : value .own fuel depth (skipGap (' ' :: (write f level v ++ rest))) =
      .ok (v, rest) := by
    rw [hskip, hm.2 hlength hdepth hrest]
  rw [htext]
  exact ⟨fun more hmore => (MembersStep.last (text?_writeText ..) hcolon hvalue hmore).eq,
    fun more hmore => (MembersStep.cons (text?_writeText ..) hcolon hvalue hmore rfl).eq⟩

/-- **A row of members is read back** up to the closing brace, after those of other names. -/
theorem members_write {ms before : List (String × Json)}
    (hms : ∀ m ∈ ms, Faithful n m.2 ∧ Rereads f n m.2)
    (hnames : ((before ++ ms).map Prod.fst).Nodup) (hne : ms ≠ []) (hgap : Gap gap)
    (hfuel : (Text.joinWith (f.separator level) (ms.map (writeMember f level))).length + 1 < fuel)
    (hdepth : depth + n ≤ Dialect.own.depth) :
    members .own fuel depth before
      (Text.joinWith (f.separator level) (ms.map (writeMember f level)) ++
        (gap ++ '\x7d' :: rest)) = .ok (before ++ ms, rest) := by
  induction ms generalizing fuel before with
  | nil => exact absurd rfl hne
  | cons m ms ih =>
    obtain ⟨fuel, rfl⟩ := exists_succ_of_lt hfuel
    have hm := hms m List.mem_cons_self
    have hput : putMember m.1 m.2 before = before ++ [m] := by
      refine putMember_of_not_mem fun hmem => ?_
      rw [List.map_append, List.nodup_append] at hnames
      exact hnames.2.2 m.1 hmem m.1 (by simp) rfl
    cases ms with
    | nil =>
      simp only [List.map_cons, List.map_nil, Text.joinWith] at hfuel ⊢
      have hclosing : skipGap (gap ++ '\x7d' :: rest) = '\x7d' :: rest := by
        rw [hgap.skipGap_append, skipGap_cons (by decide)]
      rw [(members_writeMember hm (by omega) hdepth (hgap.endsNumber (by decide))).1 rest hclosing,
        hput]
    | cons next ms =>
      obtain ⟨between, hbetween, hsep⟩ := exists_separator_eq f level
      have hrow : Text.joinWith (f.separator level) ((m :: next :: ms).map (writeMember f level)) =
          writeMember f level m ++ (',' :: between ++
            Text.joinWith (f.separator level) ((next :: ms).map (writeMember f level))) := by
        rw [← hsep]
        exact joinWith_cons_cons ..
      have hopens :
          Opens (Text.joinWith (f.separator level) ((next :: ms).map (writeMember f level))) :=
        (opens_writeMember next).joinWith _ _
      rw [hrow] at hfuel ⊢
      simp only [List.length_append, List.length_cons] at hfuel
      have hlength : (Text.joinWith (f.separator level)
          ((next :: ms).map (writeMember f level))).length + 1 < fuel := by omega
      have hnames' : ((before ++ [m] ++ next :: ms).map Prod.fst).Nodup := by simpa using hnames
      -- The members so far are an argument of the reader: the induction goes on with one more of
      -- them.
      have hmore := ih (fun u hu => hms u (List.mem_cons_of_mem m hu)) hnames' (by simp) hlength
      rw [List.append_assoc, List.append_assoc, List.cons_append,
        (members_writeMember hm (by omega) hdepth (endsNumber_cons (by decide) _)).2 _
          (skipGap_cons (by decide) _), hput, hbetween.skipGap_append, hopens.skipGap_append, hmore]
      simp

/-! ## Whole values -/

/-- An array that is not empty, after its bracket and a gap. -/
theorem value_array {s t : List Char} {vs : List Json} (hskip : skipGap s = t) (ht : Opens t)
    (hdepth : depth < Dialect.own.depth)
    (hitems : items .own fuel (depth + 1) t = .ok (vs, rest)) :
    value .own (fuel + 1) depth ('[' :: s) = .ok (.array vs, rest) := by
  obtain ⟨c, t, rfl, -, hc, -⟩ := ht
  refine (ValueStep.array (Nat.not_le.2 hdepth) (fun rest hclose => ?_) (hskip ▸ hitems)).eq
  exact hc (List.cons.inj (hskip.symm.trans hclose)).1

/-- An object that is not empty, after its brace and a gap. -/
theorem value_object {s t : List Char} {ms : List (String × Json)} (hskip : skipGap s = t)
    (ht : Opens t) (hdepth : depth < Dialect.own.depth)
    (hmembers : members .own fuel (depth + 1) [] t = .ok (ms, rest)) :
    value .own (fuel + 1) depth ('\x7b' :: s) = .ok (.object ms, rest) := by
  obtain ⟨c, t, rfl, -, -, hc⟩ := ht
  refine (ValueStep.object (Nat.not_le.2 hdepth) (fun rest hclose => ?_) (hskip ▸ hmembers)).eq
  exact hc (List.cons.inj (hskip.symm.trans hclose)).1

theorem rereads_array {vs : List Json} (hvs : ∀ v ∈ vs, Faithful n v ∧ Rereads f n v) :
    Rereads f (n + 1) (.array vs) := by
  intro fuel depth level rest hfuel hdepth _
  obtain ⟨fuel, rfl⟩ := exists_succ_of_lt hfuel
  cases vs with
  | nil =>
    exact (ValueStep.emptyArray rfl (skipGap_cons (by decide) rest)).eq
  | cons v vs =>
    have hopens : Opens (Text.joinWith (f.separator (level + 1))
        (writeItems f (level + 1) (v :: vs))) :=
      ((hvs v List.mem_cons_self).1.opens f (level + 1)).joinWith _ _
    have hwritten : write f level (.array (v :: vs)) = '[' :: (f.lineBreak (level + 1) ++
        (Text.joinWith (f.separator (level + 1)) (writeItems f (level + 1) (v :: vs)) ++
          (f.lineBreak level ++ [']']))) :=
      enclose_cons ..
    rw [hwritten] at hfuel ⊢
    simp only [List.length_append, List.length_cons] at hfuel
    simp only [List.cons_append, List.append_assoc, List.nil_append]
    refine value_array ?_ (hopens.append _) (by omega)
      (items_write hvs (by simp) (gap_lineBreak f level) (by omega) (by omega))
    rw [(gap_lineBreak f (level + 1)).skipGap_append, hopens.skipGap_append]

theorem rereads_object {ms : List (String × Json)}
    (hms : ∀ m ∈ ms, Faithful n m.2 ∧ Rereads f n m.2) (hnames : (ms.map Prod.fst).Nodup) :
    Rereads f (n + 1) (.object ms) := by
  intro fuel depth level rest hfuel hdepth _
  obtain ⟨fuel, rfl⟩ := exists_succ_of_lt hfuel
  cases ms with
  | nil =>
    exact (ValueStep.emptyObject rfl (skipGap_cons (by decide) rest)).eq
  | cons m ms =>
    have hopens : Opens (Text.joinWith (f.separator (level + 1))
        ((m :: ms).map (writeMember f (level + 1)))) :=
      (opens_writeMember m).joinWith _ _
    have hwritten : write f level (.object (m :: ms)) = '\x7b' :: (f.lineBreak (level + 1) ++
        (Text.joinWith (f.separator (level + 1)) ((m :: ms).map (writeMember f (level + 1))) ++
          (f.lineBreak level ++ ['\x7d']))) := by
      rw [write, writeMembers_eq_map]
      exact enclose_cons ..
    rw [hwritten] at hfuel ⊢
    simp only [List.length_append, List.length_cons] at hfuel
    simp only [List.cons_append, List.append_assoc, List.nil_append]
    refine value_object ?_ (hopens.append _) (by omega)
      (members_write hms hnames (by simp) (gap_lineBreak f level) (by omega) (by omega))
    rw [(gap_lineBreak f (level + 1)).skipGap_append, hopens.skipGap_append]

/-- **A faithful value is read back** from what is written of it in any format. -/
theorem Faithful.rereads {v : Json} (h : Faithful n v) (f : Format) : Rereads f n v := by
  induction h with
  | null => exact rereads_null
  | bool => exact rereads_bool _
  | int h => exact rereads_int h
  | string => exact rereads_string _
  | array h ih => exact rereads_array fun v hv => ⟨h v hv, ih v hv⟩
  | object hnames h ih => exact rereads_object (fun m hm => ⟨h m hm, ih m hm⟩) hnames

/-- A faithful value is what the text of it holds, also with a gap after it. -/
theorem parse_write_append {v : Json} (h : Faithful Dialect.own.depth v) (f : Format)
    {gap : List Char} (hgap : Gap gap) : parse .own (write f 0 v ++ gap) = .ok v := by
  have hends : EndsNumber gap := fun c hc =>
    not_isDigit_of_isGap (hgap c (List.mem_of_mem_head? hc))
  have hread : value .own (2 * (write f 0 v ++ gap).length + 1) 0 (write f 0 v ++ gap) =
      .ok (v, gap) :=
    h.rereads f (by rw [List.length_append]; omega) (by omega) hends
  have hskip : skipGap gap = [] := by
    rw [← List.append_nil gap, hgap.skipGap_append]
    rfl
  rw [parse, (h.opens f 0).skipGap_append, hread]
  simp [hskip]

/-- **A faithful value is what the text of it holds.** -/
theorem parse_write {v : Json} (h : Faithful Dialect.own.depth v) (f : Format) :
    parse .own (write f 0 v) = .ok v := by
  simpa using parse_write_append h f gap_nil

/-! ## Control characters -/

/-- The text has no control character of the basic Latin block but line feeds. -/
def Clean (s : List Char) : Prop := ∀ c ∈ s, c = '\n' ∨ 32 ≤ c.toNat

theorem Clean.nil : Clean [] := fun _ h => nomatch h

theorem Clean.cons {c : Char} {s : List Char} (hc : 32 ≤ c.toNat) (h : Clean s) :
    Clean (c :: s) :=
  List.forall_mem_cons.2 ⟨.inr hc, h⟩

theorem Clean.append {s t : List Char} (hs : Clean s) (ht : Clean t) : Clean (s ++ t) :=
  List.forall_mem_append.2 ⟨hs, ht⟩

theorem clean_unitEscape (unit : Nat) : Clean (unitEscape unit) := by
  have hdigit : ∀ n < 16, 32 ≤ (Text.hexDigit n).toNat := by decide
  have hdigits (n : Nat) : 32 ≤ (Text.hexDigit (n % 16)).toNat :=
    hdigit _ (Nat.mod_lt _ (by decide))
  have hhex : unitEscape unit = ['\\', 'u', Text.hexDigit (unit / 4096 % 16),
      Text.hexDigit (unit / 256 % 16), Text.hexDigit (unit / 16 % 16),
      Text.hexDigit (unit / 1 % 16)] := rfl
  rw [hhex]
  exact .cons (by decide) (.cons (by decide) (.cons (hdigits _) (.cons (hdigits _)
    (.cons (hdigits _) (.cons (hdigits _) .nil)))))

theorem clean_writeChar (basicLatin : Bool) (c : Char) : Clean (writeChar basicLatin c) := by
  have hescape {e : Char} (he : 32 ≤ e.toNat) : Clean ['\\', e] := .cons (by decide) (.cons he .nil)
  unfold writeChar
  repeat' split
  all_goals first
    | exact hescape (by decide)
    | exact clean_unitEscape _
    | skip
  · unfold unitEscapes
    split
    · exact clean_unitEscape _
    · exact (clean_unitEscape _).append (clean_unitEscape _)
  · exact .cons (Nat.le_of_not_lt ‹_›) .nil

theorem clean_writeText (basicLatin : Bool) (s : String) : Clean (writeText basicLatin s) := by
  refine .cons (by decide) (.append (fun c hc => ?_) (.cons (by decide) .nil))
  obtain ⟨d, -, hd⟩ := List.mem_flatMap.1 hc
  exact clean_writeChar basicLatin d c hd

theorem clean_digits (n : Nat) : Clean (digits n) := by
  intro c hc
  have hdigit := isDigit_of_mem_digits hc
  simp only [isDigit, Bool.and_eq_true, decide_eq_true_eq] at hdigit
  exact .inr (Nat.le_trans (by decide) hdigit.1)

theorem clean_ofInt (n : Int) : Clean (ofInt n).toList := by
  cases n with
  | ofNat n => simpa [ofInt, ofNat] using clean_digits n
  | negSucc n =>
    have hclean : Clean ('-' :: digits (n + 1)) := .cons (by decide) (clean_digits (n + 1))
    simpa [ofInt, ofNat] using hclean

theorem clean_lineBreak (f : Format) (depth : Nat) : Clean (f.lineBreak depth) := by
  intro c hc
  rw [Format.lineBreak] at hc
  split at hc
  · rcases List.mem_cons.1 hc with rfl | hc
    · exact .inl rfl
    · rw [List.eq_of_mem_replicate hc]
      exact .inr (by decide)
  · cases hc

theorem clean_separator (f : Format) (depth : Nat) : Clean (f.separator depth) := by
  refine .cons (by decide) (.append ?_ (clean_lineBreak f depth))
  split
  · exact .nil
  · exact .cons (by decide) .nil

theorem clean_joinWith {sep : List Char} (hsep : Clean sep) {parts : List (List Char)}
    (h : ∀ part ∈ parts, Clean part) : Clean (Text.joinWith sep parts) := by
  induction parts with
  | nil => exact .nil
  | cons part parts ih =>
    obtain ⟨hpart, hparts⟩ := List.forall_mem_cons.1 h
    cases parts with
    | nil => exact hpart
    | cons next parts =>
      rw [joinWith_cons_cons]
      exact hpart.append (hsep.append (ih hparts))

theorem clean_enclose (f : Format) (depth : Nat) {opening closing : Char}
    (hopening : 32 ≤ opening.toNat) (hclosing : 32 ≤ closing.toNat) {parts : List (List Char)}
    (h : ∀ part ∈ parts, Clean part) : Clean (f.enclose depth opening closing parts) := by
  cases parts with
  | nil => exact .cons hopening (.cons hclosing .nil)
  | cons part parts =>
    rw [enclose_cons]
    have hparts := clean_joinWith (clean_separator f (depth + 1)) h
    exact .cons hopening ((clean_lineBreak f (depth + 1)).append
      (hparts.append ((clean_lineBreak f depth).append (.cons hclosing .nil))))

theorem writeItems_eq_map (vs : List Json) : writeItems f level vs = vs.map (write f level) := by
  induction vs with
  | nil => rfl
  | cons v vs ih => rw [writeItems, ih, List.map_cons]

/-- **What is written of a faithful value has no control characters** but line feeds. -/
theorem Faithful.clean {v : Json} (h : Faithful n v) (f : Format) (level : Nat) :
    Clean (write f level v) := by
  induction h generalizing level with
  | null => simp [write, Clean]
  | @bool _ b => cases b <;> simp [write, Clean]
  | int => exact clean_ofInt _
  | string => exact clean_writeText _ _
  | array h ih =>
    refine clean_enclose f level (by decide) (by decide) fun part hpart => ?_
    rw [writeItems_eq_map] at hpart
    obtain ⟨v, hv, rfl⟩ := List.mem_map.1 hpart
    exact ih v hv _
  | object hnames h ih =>
    refine clean_enclose f level (by decide) (by decide) fun part hpart => ?_
    rw [writeMembers_eq_map] at hpart
    obtain ⟨m, hm, rfl⟩ := List.mem_map.1 hpart
    exact (clean_writeText _ _).append (.cons (by decide) (.cons (by decide) (ih m hm _)))

/-- A text without such characters has no other line ends. -/
theorem Clean.plainNewlines_eq {s : List Char} (h : Clean s) : Text.plainNewlines s = s := by
  have hreturn : '\r' ∉ s := fun hmem => absurd (h _ hmem) (by decide)
  clear h
  fun_induction Text.plainNewlines s with
  | case1 => rfl
  | case2 => exact absurd List.mem_cons_self hreturn
  | case3 => exact absurd List.mem_cons_self hreturn
  | case4 c rest _ _ ih => rw [ih fun hmem => hreturn (List.mem_cons_of_mem c hmem)]

end WorkspaceAudit.Json
