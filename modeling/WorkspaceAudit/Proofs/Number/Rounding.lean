import WorkspaceAudit.Number.Reading
import Mathlib

/-!
# Rounding to binary numbers

- `Binary.value?`: the number that a finite binary number is; `Binary.Fits`: it has at most 53 bits
  and an exponent that is not too small.
- `Binary.le_of_ratio_le`, `Binary.le_of_le_ratio`: rounding does not pass a number that fits;
  `Binary.fits_ofRatio`: and what it gives fits.
- `Binary.Within`: a finite number whose size is at most a power of two; differences and multiples
  of such numbers are finite.
- `Reading.GoesBack`: a stopwatch shows less than before.
- `Reading.elapsedMs_nonneg`: if it does not, the time between two readings is not below zero, also
  where whole readings are rounded.
- `Reading.exists_elapsedMs`: the time between readings that are not too large can be told.
-/

namespace WorkspaceAudit

namespace Binary

variable {num den k m : Nat} {e f : Int} {negative s : Bool}

/-! ## Whole quotients -/

theorem le_roundDiv (hden : 0 < den) (h : k * den ≤ num) : k ≤ roundDiv num den := by
  have hq : k ≤ num / den := (Nat.le_div_iff_mul_le hden).2 h
  unfold roundDiv
  dsimp only
  split_ifs <;> omega

theorem roundDiv_le (hden : 0 < den) (h : num ≤ k * den) : roundDiv num den ≤ k := by
  have hq : num / den ≤ k := Nat.div_le_of_le_mul (by rwa [Nat.mul_comm])
  -- What is rounded up is not a multiple of the divisor, so there is room for one more.
  have hup : num % den ≠ 0 → num / den + 1 ≤ k := by
    intro hrest
    refine (Nat.div_lt_iff_lt_mul hden).2 (lt_of_le_of_ne h fun heq => hrest ?_)
    rw [heq, Nat.mul_mod_left]
  unfold roundDiv
  dsimp only
  split_ifs <;> omega

/-! ## Quotients by powers of two -/

theorem scaleDown_pos (hden : 0 < den) (num : Nat) (e : Int) : 0 < (scaleDown num den e).2 := by
  cases e with
  | ofNat e => exact Nat.mul_pos hden (Nat.two_pow_pos e)
  | negSucc e => exact hden

theorem scaleDown_eq (num den : Nat) (e : Int) :
    ((scaleDown num den e).1 : ℚ) / (scaleDown num den e).2 = num / den / 2 ^ e := by
  cases e with
  | ofNat e => simp [scaleDown, div_div]
  | negSucc e =>
    rw [zpow_negSucc, div_inv_eq_mul]
    simp [scaleDown, mul_div_right_comm]

theorem one_le_scaleDown_iff (hden : 0 < den) (num : Nat) (e : Int) :
    (scaleDown num den e).2 ≤ (scaleDown num den e).1 ↔ (2 : ℚ) ^ e ≤ num / den := by
  have hpos : (0 : ℚ) < (scaleDown num den e).2 := by exact_mod_cast scaleDown_pos hden num e
  rw [← one_le_div (by positivity : (0 : ℚ) < 2 ^ e), ← scaleDown_eq, one_le_div hpos, Nat.cast_le]

/-- A power of two that is not above a quotient. -/
theorem two_zpow_exponentOf_le (hnum : num ≠ 0) (hden : 0 < den) :
    (2 : ℚ) ^ exponentOf num den ≤ num / den := by
  have hdenQ : (0 : ℚ) < den := by exact_mod_cast hden
  have hlow : (2 : ℚ) ^ num.log2 ≤ num := by exact_mod_cast Nat.log2_self_le hnum
  have hhigh : (den : ℚ) < 2 ^ (den.log2 + 1) := by exact_mod_cast Nat.lt_log2_self
  unfold exponentOf
  dsimp only
  split_ifs with h
  · exact (one_le_scaleDown_iff hden _ _).1 h
  · have hexp : (2 : ℚ) ^ ((num.log2 : Int) - den.log2 - 1) =
        2 ^ num.log2 / 2 ^ (den.log2 + 1) := by
      rw [sub_sub, zpow_sub₀ two_ne_zero, zpow_natCast, ← zpow_natCast (2 : ℚ) (den.log2 + 1)]
      norm_cast
    rw [hexp]
    exact div_le_div₀ (by positivity) hlow hdenQ hhigh.le

/-- The next power of two is above it. -/
theorem lt_two_zpow_exponentOf (hden : 0 < den) :
    (num : ℚ) / den < 2 ^ (exponentOf num den + 1) := by
  have hdenQ : (0 : ℚ) < den := by exact_mod_cast hden
  have hlow : (2 : ℚ) ^ den.log2 ≤ den := by exact_mod_cast Nat.log2_self_le hden.ne'
  have hhigh : (num : ℚ) < 2 ^ (num.log2 + 1) := by exact_mod_cast Nat.lt_log2_self
  unfold exponentOf
  dsimp only
  split_ifs with h
  · have hexp : (2 : ℚ) ^ ((num.log2 : Int) - den.log2 + 1) =
        2 ^ (num.log2 + 1) / 2 ^ den.log2 := by
      rw [sub_add_eq_add_sub, zpow_sub₀ two_ne_zero, zpow_natCast,
        ← zpow_natCast (2 : ℚ) (num.log2 + 1)]
      norm_cast
    rw [hexp, div_lt_div_iff₀ hdenQ (by positivity)]
    calc (num : ℚ) * 2 ^ den.log2 ≤ num * den := by gcongr
      _ < 2 ^ (num.log2 + 1) * den := by gcongr
  · rw [sub_add_cancel, ← not_le]
    exact fun hle => h ((one_le_scaleDown_iff hden _ _).2 hle)

/-! ## Numbers that fit -/

/-- The exponent of the grid on which a quotient is rounded. -/
def gridExponent (num den : Nat) : Int := max (exponentOf num den - 52) leastExponent

/-- The point of the grid to which a quotient is rounded. -/
def gridPoint (num den : Nat) : Nat :=
  let q := scaleDown num den (gridExponent num den)
  roundDiv q.1 q.2

/-- A point of a grid as significand and exponent. The power of two above all significands is
written with the next exponent. -/
def normalized (point : Nat) (e : Int) : Nat × Int :=
  if point == Nat.pow 2 53 then (Nat.pow 2 52, e + 1) else (point, e)

theorem normalized_eq (point : Nat) (e : Int) :
    ((normalized point e).1 : ℚ) * 2 ^ (normalized point e).2 = point * 2 ^ e := by
  unfold normalized
  split_ifs with h
  · obtain rfl : point = Nat.pow 2 53 := by simpa using h
    rw [zpow_add_one₀ two_ne_zero]
    push_cast
    ring
  · rfl

theorem ofRatio_eq (hnum : num ≠ 0) : ofRatio negative num den =
    let p := normalized (gridPoint num den) (gridExponent num den)
    if greatestExponent < p.2 then .infinite negative else .finite negative p.1 p.2 := by
  unfold ofRatio
  rw [if_neg (by simpa using hnum)]
  rfl

/-- A finite number to which a quotient is rounded is a point of its grid. -/
theorem eq_gridPoint_of_ofRatio (hnum : num ≠ 0) (h : ofRatio negative num den = .finite s m e) :
    (m : ℚ) * 2 ^ e = gridPoint num den * 2 ^ gridExponent num den := by
  rw [ofRatio_eq hnum] at h
  dsimp only at h
  split_ifs at h
  obtain ⟨-, rfl, rfl⟩ := finite.inj h
  exact normalized_eq _ _

/-- Rounding keeps the sign. -/
theorem sign_of_ofRatio (h : ofRatio negative num den = .finite s m e) : s = negative := by
  by_cases hnum : num = 0
  · subst hnum
    exact (finite.inj h).1.symm
  · rw [ofRatio_eq hnum] at h
    dsimp only at h
    split_ifs at h
    exact (finite.inj h).1.symm

/-- A number with at most 53 bits and an exponent that is not too small. -/
def FitsIn (k : Nat) (f : Int) : Prop := k < 2 ^ 53 ∧ leastExponent ≤ f

/-- A number that fits is on the grid of a quotient, or below its greatest power of two. -/
theorem FitsIn.cases (h : FitsIn k f) (hnum : num ≠ 0) (hden : 0 < den) :
    (∃ j : Nat, (k : ℚ) * 2 ^ f = j * 2 ^ gridExponent num den) ∨
      ((k : ℚ) * 2 ^ f < 2 ^ 52 * 2 ^ gridExponent num den ∧
        (2 : ℚ) ^ 52 * 2 ^ gridExponent num den ≤ num / den) := by
  obtain ⟨hk, hf⟩ := h
  -- On a grid that is no finer, the number is a point of it. On a finer one it is small.
  by_cases hgrid : gridExponent num den ≤ f
  · refine .inl ⟨k * 2 ^ (f - gridExponent num den).toNat, ?_⟩
    have hexp : f = ((f - gridExponent num den).toNat : Int) + gridExponent num den := by omega
    nth_rewrite 1 [hexp]
    rw [zpow_add₀ two_ne_zero, zpow_natCast]
    push_cast
    ring
  · have hexponent : gridExponent num den = exponentOf num den - 52 := by
      unfold gridExponent at hgrid ⊢
      omega
    have hpower : (2 : ℚ) ^ 52 * 2 ^ gridExponent num den = 2 ^ exponentOf num den := by
      rw [hexponent, ← zpow_natCast, ← zpow_add₀ two_ne_zero]
      congr 1
      push_cast
      ring
    refine .inr ⟨?_, hpower ▸ two_zpow_exponentOf_le hnum hden⟩
    have hnext : (2 : ℚ) ^ (f + 1) ≤ 2 ^ gridExponent num den :=
      zpow_le_zpow_right₀ one_le_two (by omega)
    have hkQ : (k : ℚ) < 2 ^ 53 := by exact_mod_cast hk
    calc (k : ℚ) * 2 ^ f < 2 ^ 53 * 2 ^ f := by gcongr
      _ = 2 ^ 52 * 2 ^ (f + 1) := by rw [zpow_add_one₀ two_ne_zero]; ring
      _ ≤ 2 ^ 52 * 2 ^ gridExponent num den := by gcongr

/-- A quotient in units of its grid. -/
theorem ratio_eq (num den : Nat) :
    (num : ℚ) / den = ((scaleDown num den (gridExponent num den)).1 : ℚ) /
      (scaleDown num den (gridExponent num den)).2 * 2 ^ gridExponent num den := by
  rw [scaleDown_eq, div_mul_cancel₀ _ (zpow_ne_zero _ two_ne_zero)]

theorem gridPoint_le (hden : 0 < den)
    (h : (num : ℚ) / den ≤ k * 2 ^ gridExponent num den) : gridPoint num den ≤ k := by
  have hpos := scaleDown_pos hden num (gridExponent num den)
  rw [ratio_eq, mul_le_mul_iff_left₀ (by positivity), div_le_iff₀ (by exact_mod_cast hpos)] at h
  exact roundDiv_le hpos (by exact_mod_cast h)

theorem le_gridPoint (hden : 0 < den)
    (h : k * 2 ^ gridExponent num den ≤ (num : ℚ) / den) : k ≤ gridPoint num den := by
  have hpos := scaleDown_pos hden num (gridExponent num den)
  rw [ratio_eq, mul_le_mul_iff_left₀ (by positivity), le_div_iff₀ (by exact_mod_cast hpos)] at h
  exact le_roundDiv hpos (by exact_mod_cast h)

/-- **Rounding does not pass a number that fits** from below. -/
theorem le_of_ratio_le (hden : 0 < den) (hfits : FitsIn k f)
    (h : ofRatio negative num den = .finite s m e) (hle : (num : ℚ) / den ≤ k * 2 ^ f) :
    (m : ℚ) * 2 ^ e ≤ k * 2 ^ f := by
  by_cases hnum : num = 0
  · subst hnum
    obtain ⟨-, rfl, -⟩ := finite.inj h
    rw [Nat.cast_zero, zero_mul]
    positivity
  rw [eq_gridPoint_of_ofRatio hnum h]
  rcases hfits.cases hnum hden with ⟨j, hj⟩ | ⟨hbelow, habove⟩
  · rw [hj] at hle ⊢
    have hpoint : (gridPoint num den : ℚ) ≤ j := by exact_mod_cast gridPoint_le hden hle
    gcongr
  · linarith

/-- **Rounding does not pass a number that fits** from above. -/
theorem le_of_le_ratio (hden : 0 < den) (hfits : FitsIn k f)
    (h : ofRatio negative num den = .finite s m e) (hle : (k : ℚ) * 2 ^ f ≤ num / den) :
    (k : ℚ) * 2 ^ f ≤ m * 2 ^ e := by
  by_cases hnum : num = 0
  · subst hnum
    rw [Nat.cast_zero, zero_div] at hle
    exact hle.trans (by positivity)
  rw [eq_gridPoint_of_ofRatio hnum h]
  rcases hfits.cases hnum hden with ⟨j, hj⟩ | ⟨hbelow, habove⟩
  · rw [hj] at hle ⊢
    have hpoint : (j : ℚ) ≤ gridPoint num den := by exact_mod_cast le_gridPoint hden hle
    gcongr
  · have hpoint : 2 ^ 52 ≤ gridPoint num den := le_gridPoint hden (by exact_mod_cast habove)
    have hpointQ : (2 : ℚ) ^ 52 ≤ gridPoint num den := by exact_mod_cast hpoint
    calc (k : ℚ) * 2 ^ f ≤ 2 ^ 52 * 2 ^ gridExponent num den := hbelow.le
      _ ≤ gridPoint num den * 2 ^ gridExponent num den := by gcongr

/-! ## Whole numbers -/

/-- The number that a finite binary number is. -/
def value? : Binary → Option ℚ
  | .finite negative m e => some (signed negative m * 2 ^ e)
  | _ => none

/-- The number has at most 53 bits and an exponent that is not too small, if it is finite. -/
def Fits : Binary → Prop
  | .finite _ m e => FitsIn m e
  | _ => True

/-- A quotient that is not too large is rounded to a finite number. -/
theorem exists_ofRatio_eq_finite (negative : Bool) (hden : 0 < den)
    (h : (num : ℚ) / den < 2 ^ (1023 : Int)) :
    ∃ m e, ofRatio negative num den = .finite negative m e := by
  by_cases hnum : num = 0
  · subst hnum
    exact ⟨0, leastExponent, rfl⟩
  have hexponent : exponentOf num den < 1023 :=
    (zpow_lt_zpow_iff_right₀ one_lt_two).1 ((two_zpow_exponentOf_le hnum hden).trans_lt h)
  have hgrid : gridExponent num den ≤ 970 := by
    unfold gridExponent leastExponent
    omega
  have hlast : ¬ greatestExponent < (normalized (gridPoint num den) (gridExponent num den)).2 := by
    unfold normalized greatestExponent
    split_ifs <;> dsimp only <;> omega
  rw [ofRatio_eq hnum]
  exact ⟨_, _, if_neg hlast⟩

/-- What a quotient is rounded to fits. -/
theorem fits_ofRatio (hden : 0 < den) (negative : Bool) (num : Nat) :
    (ofRatio negative num den).Fits := by
  by_cases hnum : num = 0
  · subst hnum
    exact ⟨Nat.two_pow_pos 53, le_rfl⟩
  -- A point of the grid has at most 53 bits, but rounding up may give a power of two more; this is
  -- what `normalized` is for.
  have hpoint : gridPoint num den ≤ 2 ^ 53 := by
    refine gridPoint_le hden (le_of_lt ((lt_two_zpow_exponentOf hden).trans_le ?_))
    have hgrid : exponentOf num den + 1 ≤ 53 + gridExponent num den := by
      unfold gridExponent
      omega
    calc (2 : ℚ) ^ (exponentOf num den + 1) ≤ 2 ^ (53 + gridExponent num den) :=
          zpow_le_zpow_right₀ one_le_two hgrid
      _ = ((2 ^ 53 : Nat) : ℚ) * 2 ^ gridExponent num den := by
          rw [zpow_add₀ two_ne_zero]
          norm_cast
  have hleast : leastExponent ≤ gridExponent num den := le_max_right _ _
  rw [ofRatio_eq hnum]
  dsimp only
  split_ifs
  · trivial
  · unfold normalized
    split_ifs with htop
    · exact ⟨by norm_num, by dsimp only; omega⟩
    · have hne : gridPoint num den ≠ 2 ^ 53 := by simpa using htop
      exact ⟨lt_of_le_of_ne hpoint hne, hleast⟩

/-- A decimal number fits when it has been read. -/
theorem fits_ofDecimal (negative : Bool) (digits : Nat) (exponent : Int) :
    (ofDecimal negative digits exponent).Fits := by
  cases exponent with
  | ofNat e =>
    simp only [ofDecimal]
    split_ifs
    · exact fits_ofRatio Nat.one_pos _ _
    · trivial
    · exact fits_ofRatio Nat.one_pos _ _
  | negSucc e =>
    simp only [ofDecimal]
    split_ifs
    · exact fits_ofRatio Nat.one_pos _ _
    · exact fits_ofRatio (Nat.pow_pos (Nat.succ_pos 9)) _ _

theorem signed_false (m : Nat) : signed false m = m := rfl

theorem signed_true (m : Nat) : signed true m = -m := rfl

variable {i : Int} {x y : Binary} {a b : ℚ}

/-- The size of a finite number. -/
theorem exists_size (hfits : y.Fits) (hb : y.value? = some b) :
    ∃ k f, FitsIn k f ∧ (b = k * 2 ^ f ∨ b = -(k * 2 ^ f)) := by
  cases y with
  | finite t k f =>
    refine ⟨k, f, hfits, ?_⟩
    obtain rfl := Option.some.inj hb
    cases t with
    | false => exact .inl (by rw [signed_false, Int.cast_natCast])
    | true => exact .inr (by rw [signed_true, Int.cast_neg, Int.cast_natCast, neg_mul])
  | infinite t => cases hb
  | undefined => cases hb

/-- A multiple of a power of two as a quotient. -/
theorem exists_ofScaled_eq_ofRatio (i f : Int) :
    ∃ num den, 0 < den ∧ ofScaled i f = ofRatio (decide (i < 0)) num den ∧
      (num : ℚ) / den = |(i : ℚ)| * 2 ^ f := by
  cases f with
  | ofNat f =>
    refine ⟨i.natAbs * 2 ^ f, 1, Nat.one_pos, rfl, ?_⟩
    simp [Nat.cast_natAbs]
  | negSucc f =>
    refine ⟨i.natAbs, 2 ^ (f + 1), Nat.two_pow_pos _, rfl, ?_⟩
    rw [zpow_negSucc, ← div_eq_mul_inv, Nat.cast_natAbs, Int.cast_abs]
    push_cast
    rfl

/-- The binary number nearest to a whole number has its sign, and its size is not on the other side
of any size that fits. -/
theorem exists_size_ofScaled (ha : (ofScaled i f).value? = some a) :
    ∃ r : ℚ, 0 ≤ r ∧ (i < 0 → a = -r) ∧ (0 ≤ i → a = r) ∧ ∀ {k : Nat} {g : Int}, FitsIn k g →
      (|(i : ℚ)| * 2 ^ f ≤ k * 2 ^ g → r ≤ k * 2 ^ g) ∧
      ((k : ℚ) * 2 ^ g ≤ |(i : ℚ)| * 2 ^ f → k * 2 ^ g ≤ r) := by
  obtain ⟨num, den, hden, hratio, hsize⟩ := exists_ofScaled_eq_ofRatio i f
  rw [hratio] at ha
  cases hx : ofRatio (decide (i < 0)) num den with
  | finite s m e =>
    rw [hx] at ha
    obtain rfl := Option.some.inj ha
    obtain rfl := sign_of_ofRatio hx
    refine ⟨m * 2 ^ e, by positivity, fun hneg => ?_, fun hpos => ?_, fun hfits => ?_⟩
    · rw [decide_eq_true hneg, signed_true, Int.cast_neg, Int.cast_natCast, neg_mul]
    · rw [decide_eq_false (not_lt.2 hpos), signed_false, Int.cast_natCast]
    · rw [← hsize]
      exact ⟨le_of_ratio_le hden hfits hx, le_of_le_ratio hden hfits hx⟩
  | infinite s => rw [hx] at ha; cases ha
  | undefined => rw [hx] at ha; cases ha

/-- A whole number that is not above a number that fits is not above it when it is rounded. -/
theorem value_ofScaled_le (hfits : y.Fits) (hb : y.value? = some b)
    (ha : (ofScaled i 0).value? = some a) (h : (i : ℚ) ≤ b) : a ≤ b := by
  obtain ⟨k, f, hk, hsize⟩ := exists_size hfits hb
  obtain ⟨r, hr, hneg, hpos, hround⟩ := exists_size_ofScaled ha
  rw [zpow_zero, mul_one] at hround
  have hnonneg : (0 : ℚ) ≤ k * 2 ^ f := by positivity
  rcases lt_or_ge i 0 with hi | hi
  · have habs : |(i : ℚ)| = -i := abs_of_neg (by exact_mod_cast hi)
    rw [hneg hi]
    rcases hsize with rfl | rfl
    · linarith
    · linarith [(hround hk).2 (by linarith)]
  · have hiQ : (0 : ℚ) ≤ i := by exact_mod_cast hi
    have habs : |(i : ℚ)| = i := abs_of_nonneg hiQ
    rw [hpos hi]
    rcases hsize with rfl | rfl
    · exact (hround hk).1 (by linarith)
    · -- Only zero is both, and zero is not rounded.
      have hzero := (hround (k := 0) ⟨Nat.two_pow_pos 53, hk.2⟩).1 (by push_cast; linarith)
      push_cast at hzero
      linarith

/-- A whole number that is not below a number that fits is not below it when it is rounded. -/
theorem le_value_ofScaled (hfits : y.Fits) (hb : y.value? = some b)
    (ha : (ofScaled i 0).value? = some a) (h : b ≤ i) : b ≤ a := by
  obtain ⟨k, f, hk, hsize⟩ := exists_size hfits hb
  obtain ⟨r, hr, hneg, hpos, hround⟩ := exists_size_ofScaled ha
  rw [zpow_zero, mul_one] at hround
  have hnonneg : (0 : ℚ) ≤ k * 2 ^ f := by positivity
  rcases lt_or_ge i 0 with hi | hi
  · have hiQ : (i : ℚ) < 0 := by exact_mod_cast hi
    have habs : |(i : ℚ)| = -i := abs_of_neg hiQ
    rw [hneg hi]
    rcases hsize with rfl | rfl
    · linarith
    · linarith [(hround hk).1 (by linarith)]
  · have habs : |(i : ℚ)| = i := abs_of_nonneg (by exact_mod_cast hi)
    rw [hpos hi]
    rcases hsize with rfl | rfl
    · exact (hround hk).2 (by linarith)
    · linarith

/-! ## Differences and multiples -/

/-- A number in units of a lower power of two. -/
theorem signed_mul_two_zpow (s : Bool) (m : Nat) (h : f ≤ e) :
    (signed s (m * Nat.pow 2 (e - f).toNat) : ℚ) * 2 ^ f = signed s m * 2 ^ e := by
  have hexp : e = ((e - f).toNat : Int) + f := by omega
  have hsize : ((m * Nat.pow 2 (e - f).toNat : Nat) : ℚ) * 2 ^ f = m * 2 ^ e := by
    nth_rewrite 2 [hexp]
    rw [Nat.pow_eq, zpow_add₀ two_ne_zero, zpow_natCast]
    push_cast
    ring
  cases s with
  | false => rw [signed_false, signed_false, Int.cast_natCast, Int.cast_natCast, hsize]
  | true =>
    rw [signed_true, signed_true, Int.cast_neg, Int.cast_neg, Int.cast_natCast, Int.cast_natCast,
      neg_mul, neg_mul, hsize]

/-- The difference of finite numbers is rounded once. -/
theorem exists_sub_eq_ofScaled (ha : x.value? = some a) (hb : y.value? = some b) :
    ∃ i f, x.sub y = ofScaled i f ∧ (i : ℚ) * 2 ^ f = a - b := by
  cases x with
  | finite s m e =>
    cases y with
    | finite t n f =>
      obtain rfl := Option.some.inj ha
      obtain rfl := Option.some.inj hb
      refine ⟨_, _, rfl, ?_⟩
      rw [Int.cast_sub, sub_mul, signed_mul_two_zpow s m (min_le_left e f),
        signed_mul_two_zpow t n (min_le_right e f)]
    | infinite t => cases hb
    | undefined => cases hb
  | infinite s => cases ha
  | undefined => cases ha

/-- So is a multiple of one. -/
theorem exists_scale_eq_ofScaled (k : Nat) (ha : x.value? = some a) :
    ∃ i f, x.scale k = ofScaled i f ∧ (i : ℚ) * 2 ^ f = k * a := by
  cases x with
  | finite s m e =>
    obtain rfl := Option.some.inj ha
    refine ⟨_, _, rfl, ?_⟩
    push_cast
    ring
  | infinite s => cases ha
  | undefined => cases ha

/-- A finite number has no sign. -/
def Unsigned : Binary → Prop
  | .finite s _ _ => s = false
  | _ => True

theorem unsigned_ofScaled (hi : 0 ≤ i) (f : Int) : (ofScaled i f).Unsigned := by
  obtain ⟨num, den, -, hratio, -⟩ := exists_ofScaled_eq_ofRatio i f
  rw [hratio, decide_eq_false (not_lt.2 hi)]
  cases h : ofRatio false num den with
  | finite s m e => exact sign_of_ofRatio h
  | infinite s => trivial
  | undefined => trivial

theorem Unsigned.scale (h : x.Unsigned) (k : Nat) : (x.scale k).Unsigned := by
  cases x with
  | finite s m e =>
    obtain rfl : s = false := h
    refine unsigned_ofScaled ?_ e
    rw [signed_false]
    positivity
  | infinite s => trivial
  | undefined => trivial

/-- What is left of a number without one that is not above it has no sign. -/
theorem unsigned_sub (h : ∀ a b, x.value? = some a → y.value? = some b → b ≤ a) :
    (x.sub y).Unsigned := by
  cases x with
  | finite s m e =>
    cases y with
    | finite t n f =>
      obtain ⟨i, g, hsub, hvalue⟩ :=
        exists_sub_eq_ofScaled (x := .finite s m e) (y := .finite t n f) rfl rfl
      have hscaled : (0 : ℚ) ≤ i * 2 ^ g := hvalue ▸ sub_nonneg.2 (h _ _ rfl rfl)
      have hnonneg : 0 ≤ i := by
        exact_mod_cast nonneg_of_mul_nonneg_left hscaled (by positivity)
      rw [hsub]
      exact unsigned_ofScaled hnonneg g
    | infinite t => trivial
    | undefined => trivial
  | infinite s =>
    cases y with
    | finite t n f => trivial
    | infinite t =>
      rw [sub]
      split_ifs <;> trivial
    | undefined => trivial
  | undefined => trivial

/-- A finite number whose size is at most a power of two. -/
def Within (g : Int) (x : Binary) : Prop :=
  ∃ a, x.value? = some a ∧ |a| ≤ 2 ^ g

theorem within_ofScaled {g : Int} (hlow : 0 ≤ g) (hhigh : g < 1023)
    (h : |(i : ℚ)| * 2 ^ f ≤ 2 ^ g) : (ofScaled i f).Within g := by
  obtain ⟨num, den, hden, hratio, hsize⟩ := exists_ofScaled_eq_ofRatio i f
  have hless : (num : ℚ) / den < 2 ^ (1023 : Int) :=
    hsize ▸ h.trans_lt (zpow_lt_zpow_right₀ one_lt_two hhigh)
  obtain ⟨m, e, hfinite⟩ := exists_ofRatio_eq_finite (decide (i < 0)) hden hless
  obtain ⟨a, hvalue⟩ : ∃ a, (ofScaled i f).value? = some a := by
    rw [hratio, hfinite]
    exact ⟨_, rfl⟩
  obtain ⟨r, hr, hneg, hpos, hround⟩ := exists_size_ofScaled hvalue
  have hpower : FitsIn 1 g := ⟨Nat.one_lt_two_pow (by decide), by unfold leastExponent; omega⟩
  have hle : r ≤ 2 ^ g := by simpa using (hround hpower).1 (by simpa using h)
  refine ⟨a, hvalue, ?_⟩
  rcases lt_or_ge i 0 with hi | hi
  · rwa [hneg hi, abs_neg, abs_of_nonneg hr]
  · rwa [hpos hi, abs_of_nonneg hr]

theorem Within.sub {g : Int} (hx : x.Within g) (hy : y.Within g) (hlow : 0 ≤ g)
    (hhigh : g < 1022) : (x.sub y).Within (g + 1) := by
  obtain ⟨a, ha, hale⟩ := hx
  obtain ⟨b, hb, hble⟩ := hy
  obtain ⟨i, f, hsub, hvalue⟩ := exists_sub_eq_ofScaled ha hb
  rw [hsub]
  refine within_ofScaled (by omega) (by omega) ?_
  calc |(i : ℚ)| * 2 ^ f = |a - b| := by
        rw [← hvalue, abs_mul, abs_of_pos (by positivity : (0 : ℚ) < 2 ^ f)]
    _ ≤ |a| + |b| := abs_sub a b
    _ ≤ 2 ^ (g + 1) := by rw [zpow_add_one₀ two_ne_zero]; linarith

theorem Within.scale {g : Int} (hx : x.Within g) (hlow : 0 ≤ g) (hhigh : g < 1013) :
    (x.scale 1000).Within (g + 10) := by
  obtain ⟨a, ha, hale⟩ := hx
  obtain ⟨i, f, hscale, hvalue⟩ := exists_scale_eq_ofScaled 1000 ha
  rw [hscale]
  refine within_ofScaled (by omega) (by omega) ?_
  calc |(i : ℚ)| * 2 ^ f = 1000 * |a| := by
        rw [← abs_of_pos (by positivity : (0 : ℚ) < 2 ^ f), ← abs_mul, hvalue, abs_mul]
        norm_num
    _ ≤ 1024 * 2 ^ g := by linarith [abs_nonneg a]
    _ = 2 ^ (g + 10) := by rw [zpow_add₀ two_ne_zero]; norm_num [mul_comm]

end Binary

/-! ## Readings -/

namespace Reading

/-- The number of seconds that a reading shows, if it is one. -/
def value? : Reading → Option ℚ
  | .whole n => some n
  | .binary x => x.value?

/-- The reading can be shown: a binary one fits. -/
def Fits : Reading → Prop
  | .whole _ => True
  | .binary x => x.Fits

/-- The reading shows a number of seconds that is not too large. -/
def Moderate (r : Reading) : Prop :=
  ∃ a, r.value? = some a ∧ |a| ≤ 2 ^ (1000 : Int)

/-- The second reading shows less than the first. -/
def GoesBack (start stop : Reading) : Prop :=
  ∃ a b, start.value? = some a ∧ stop.value? = some b ∧ b < a

variable {start stop : Reading} {x y : Binary} {ms : Int} {a b : ℚ}

theorem fits_ofDecimal (negative : Bool) (digits : Nat) (exponent : Int) :
    (binary (.ofDecimal negative digits exponent)).Fits :=
  Binary.fits_ofDecimal negative digits exponent

theorem toBinary_whole {n : Int} (h : (whole n).toBinary = .ok x) : x = Binary.ofScaled n 0 := by
  rw [toBinary] at h
  split at h
  · cases h
  · exact (Except.ok.inj h).symm

/-- A time without a sign has no less than zero milliseconds, if they can be counted. -/
theorem nonneg_of_wholeMs (hsign : x.Unsigned) (h : wholeMs x = .ok ms) : 0 ≤ ms := by
  cases x with
  | finite s m e =>
    obtain rfl : s = false := hsign
    rw [← Except.ok.inj h, Binary.signed_false]
    exact Int.natCast_nonneg _
  | infinite s => cases h
  | undefined => cases h

/-- Two readings of which one is binary are still in order when the other one is rounded. -/
theorem le_of_toBinary (hback : ¬ GoesBack start stop) (hstart : start.Fits) (hstop : stop.Fits)
    (hbinary : (∃ z, start = .binary z) ∨ ∃ z, stop = .binary z)
    (hx : start.toBinary = .ok x) (hy : stop.toBinary = .ok y)
    (ha : x.value? = some a) (hb : y.value? = some b) : a ≤ b := by
  -- A whole number is rounded before it is compared, which keeps it on its side of a number that
  -- fits.
  cases start with
  | whole i =>
    obtain rfl := toBinary_whole hx
    cases stop with
    | whole j => simp at hbinary
    | binary y' =>
      obtain rfl := Except.ok.inj hy
      exact Binary.value_ofScaled_le hstop hb ha (not_lt.1 fun hlt => hback ⟨i, b, rfl, hb, hlt⟩)
  | binary x' =>
    obtain rfl := Except.ok.inj hx
    cases stop with
    | whole j =>
      obtain rfl := toBinary_whole hy
      exact Binary.le_value_ofScaled hstart ha hb (not_lt.1 fun hlt => hback ⟨a, j, ha, rfl, hlt⟩)
    | binary y' =>
      obtain rfl := Except.ok.inj hy
      exact not_lt.1 fun hlt => hback ⟨a, b, ha, hb, hlt⟩

theorem whole_or_binary (start stop : Reading) :
    (∃ i j, start = .whole i ∧ stop = .whole j) ∨
      (∃ z, start = .binary z) ∨ ∃ z, stop = .binary z := by
  cases start with
  | whole i =>
    cases stop with
    | whole j => exact .inl ⟨i, j, rfl, rfl⟩
    | binary y => exact .inr (.inr ⟨y, rfl⟩)
  | binary x => exact .inr (.inl ⟨x, rfl⟩)

/-- If a reading is binary, the time is a difference of binary numbers. -/
theorem elapsedMs_eq_bind (h : (∃ z, start = .binary z) ∨ ∃ z, stop = .binary z) :
    elapsedMs start stop = (do
      let y ← stop.toBinary
      let x ← start.toBinary
      wholeMs ((y.sub x).scale 1000)) := by
  rcases h with ⟨z, rfl⟩ | ⟨z, rfl⟩
  · rfl
  · cases start <;> rfl

theorem exists_of_elapsedMs (h : (∃ z, start = .binary z) ∨ ∃ z, stop = .binary z)
    (hms : elapsedMs start stop = .ok ms) :
    ∃ x y, start.toBinary = .ok x ∧ stop.toBinary = .ok y ∧
      wholeMs ((y.sub x).scale 1000) = .ok ms := by
  rw [elapsedMs_eq_bind h] at hms
  cases hy : stop.toBinary with
  | error fault => rw [hy] at hms; cases hms
  | ok y =>
    cases hx : start.toBinary with
    | error fault => rw [hy, hx] at hms; cases hms
    | ok x =>
      rw [hy, hx] at hms
      exact ⟨x, y, rfl, rfl, hms⟩

/-- **The time between two readings of a stopwatch that does not go back is not below zero.** -/
theorem elapsedMs_nonneg (hback : ¬ GoesBack start stop) (hstart : start.Fits) (hstop : stop.Fits)
    (h : elapsedMs start stop = .ok ms) : 0 ≤ ms := by
  rcases whole_or_binary start stop with ⟨i, j, rfl, rfl⟩ | hbinary
  · have hle : i ≤ j := not_lt.1 fun hlt => hback ⟨i, j, rfl, rfl, by exact_mod_cast hlt⟩
    rw [← Except.ok.inj h]
    omega
  · obtain ⟨x, y, hx, hy, hms⟩ := exists_of_elapsedMs hbinary h
    refine nonneg_of_wholeMs (Binary.Unsigned.scale (Binary.unsigned_sub ?_) 1000) hms
    exact fun b a hb ha => le_of_toBinary hback hstart hstop hbinary hx hy ha hb

theorem Moderate.toBinary (h : start.Moderate) : ∃ x, start.toBinary = .ok x ∧ x.Within 1000 := by
  obtain ⟨a, ha, hle⟩ := h
  cases start with
  | whole i =>
    obtain rfl : (i : ℚ) = a := Option.some.inj ha
    have hwithin : (Binary.ofScaled i 0).Within 1000 :=
      Binary.within_ofScaled (by decide) (by decide) (by simpa using hle)
    refine ⟨_, ?_, hwithin⟩
    obtain ⟨b, hb, -⟩ := hwithin
    rw [Reading.toBinary]
    cases hx : Binary.ofScaled i 0 with
    | finite s m e => rfl
    | infinite s => rw [hx] at hb; cases hb
    | undefined => rfl
  | binary x => exact ⟨x, rfl, a, ha, hle⟩

theorem exists_wholeMs {g : Int} (h : x.Within g) : ∃ ms, wholeMs x = .ok ms := by
  obtain ⟨a, ha, -⟩ := h
  cases x with
  | finite s m e => exact ⟨_, rfl⟩
  | infinite s => cases ha
  | undefined => cases ha

/-- The time between two readings that are not too large can be told. -/
theorem exists_elapsedMs (hstart : start.Moderate) (hstop : stop.Moderate) :
    ∃ ms, elapsedMs start stop = .ok ms := by
  obtain ⟨x, hx, hxle⟩ := hstart.toBinary
  obtain ⟨y, hy, hyle⟩ := hstop.toBinary
  obtain ⟨ms, hms⟩ := exists_wholeMs
    ((hyle.sub hxle (by decide) (by decide)).scale (by decide) (by decide))
  rcases whole_or_binary start stop with ⟨i, j, rfl, rfl⟩ | hbinary
  · exact ⟨_, rfl⟩
  · refine ⟨ms, ?_⟩
    rw [elapsedMs_eq_bind hbinary, hx, hy]
    exact hms

end Reading

end WorkspaceAudit
