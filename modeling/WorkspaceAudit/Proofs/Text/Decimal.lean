import Mathlib.Data.List.TakeDrop
import WorkspaceAudit.Text.Decimal

/-!
# Decimal numerals and their values

- `value_digits`: the digits of a number write that number. They are basic Latin digits
  (`isDigit_of_mem_digits`) and begin with a zero only for zero (`head?_digits_ne_zero`).
- `length_digits_le`: a number below a power of ten has no more digits than the exponent says;
  `value_lt`: a row of digits writes a number below that power.
- `length_padded`, `value_padded`: leading zeros give a number its width and leave its value.
- `span_isDigit`: a row of digits ends where something else begins.
-/

namespace WorkspaceAudit.Text.Decimal

theorem isDigit_digit : ∀ n < 10, isDigit (digit n) = true := by decide

theorem digitValue_digit : ∀ n < 10, digitValue (digit n) = n := by decide

theorem digitValue_lt {c : Char} (h : isDigit c = true) : digitValue c < 10 := by
  simp only [isDigit, Bool.and_eq_true, decide_eq_true_eq] at h
  have hhigh : c.toNat ≤ 57 := h.2
  simp only [digitValue]
  omega

/-! ## Digits -/

/-- Enough fuel writes all digits of the number. -/
theorem digitsOnto_eq {fuel n : Nat} (h : n < fuel) (tail : List Char) :
    digitsOnto fuel n tail = digits n ++ tail := by
  induction n using Nat.strongRecOn generalizing fuel tail with
  | _ n ih =>
    obtain ⟨fuel, rfl⟩ : ∃ k, fuel = k + 1 := ⟨fuel - 1, by omega⟩
    rw [digits, digitsOnto, digitsOnto]
    by_cases hsmall : n < 10
    · simp [hsmall]
    · have hless : n / 10 < n := by omega
      simp only [hsmall, if_false]
      rw [ih (n / 10) hless (by omega), ih (n / 10) hless (by omega)]
      simp

/-- The last digit is the remainder, and the others write the quotient. -/
theorem digits_eq (n : Nat) :
    digits n = (if n < 10 then [] else digits (n / 10)) ++ [digit (n % 10)] := by
  rw [digits, digitsOnto]
  by_cases hsmall : n < 10
  · simp [hsmall]
  · simp only [hsmall, if_false]
    exact digitsOnto_eq (by omega) _

theorem digits_ne_nil (n : Nat) : digits n ≠ [] := by
  rw [digits_eq]
  simp

theorem isDigit_of_mem_digits {n : Nat} {c : Char} (h : c ∈ digits n) : isDigit c = true := by
  induction n using Nat.strongRecOn with
  | _ n ih =>
    rw [digits_eq, List.mem_append] at h
    rcases h with h | h
    · by_cases hsmall : n < 10
      · simp [hsmall] at h
      · rw [if_neg hsmall] at h
        exact ih (n / 10) (by omega) h
    · obtain rfl := List.mem_singleton.1 h
      exact isDigit_digit _ (by omega)

theorem exists_digits_eq_cons (n : Nat) : ∃ c ds, digits n = c :: ds ∧ isDigit c = true := by
  cases h : digits n with
  | nil => exact absurd h (digits_ne_nil n)
  | cons c ds => exact ⟨c, ds, rfl, isDigit_of_mem_digits (n := n) (by simp [h])⟩

/-- Only the numeral of zero begins with a zero. -/
theorem head?_digits_ne_zero {n : Nat} (h : 0 < n) : (digits n).head? ≠ some '0' := by
  induction n using Nat.strongRecOn with
  | _ n ih =>
    rw [digits_eq]
    by_cases hsmall : n < 10
    · have hnonzero : ∀ k < 10, 0 < k → digit k ≠ '0' := by decide
      rw [if_pos hsmall, Nat.mod_eq_of_lt hsmall]
      simpa using hnonzero n hsmall h
    · have hquotient := ih (n / 10) (by omega) (by omega)
      rw [if_neg hsmall]
      cases hdigits : digits (n / 10) with
      | nil => exact absurd hdigits (digits_ne_nil _)
      | cons c ds => simpa [hdigits] using hquotient

/-- A number below a power of ten has no more digits than the exponent says. -/
theorem length_digits_le {n k : Nat} (hk : 0 < k) (h : n < Nat.pow 10 k) :
    (digits n).length ≤ k := by
  induction k generalizing n with
  | zero => exact absurd hk (Nat.lt_irrefl 0)
  | succ k ih =>
    rw [digits_eq]
    by_cases hsmall : n < 10
    · simp [hsmall]
    · have hpow : n < Nat.pow 10 k * 10 := h
      have hpos : 0 < k := by
        refine Nat.pos_of_ne_zero fun hzero => ?_
        subst hzero
        exact hsmall hpow
      have hquotient := ih (n := n / 10) hpos (by omega)
      simp only [hsmall, if_false, List.length_append, List.length_singleton]
      omega

theorem length_digits_le_longest {n : Nat} (h : n < bound) : (digits n).length ≤ longest := by
  unfold bound at h
  exact length_digits_le (by decide) h

/-! ## Values -/

theorem value_append_singleton (ds : List Char) (c : Char) :
    value (ds ++ [c]) = 10 * value ds + digitValue c := by
  simp [value]

/-- **The digits of a number write that number.** -/
theorem value_digits (n : Nat) : value (digits n) = n := by
  induction n using Nat.strongRecOn with
  | _ n ih =>
    rw [digits_eq, value_append_singleton, digitValue_digit _ (by omega)]
    by_cases hsmall : n < 10
    · simp [hsmall, value, Nat.mod_eq_of_lt hsmall]
    · rw [if_neg hsmall, ih (n / 10) (by omega)]
      omega

/-- Digits read after others are read as if those had been a number. -/
theorem foldl_eq_value (ds : List Char) (n : Nat) :
    ds.foldl (fun n c => 10 * n + digitValue c) n = Nat.pow 10 ds.length * n + value ds := by
  induction ds generalizing n with
  | nil => simp [value]
  | cons c ds ih =>
    have hvalue : value (c :: ds) = Nat.pow 10 ds.length * digitValue c + value ds := by
      rw [value, List.foldl_cons, ih]
      simp
    have hpow : Nat.pow 10 (c :: ds).length = Nat.pow 10 ds.length * 10 := rfl
    rw [List.foldl_cons, ih, hvalue, hpow, Nat.mul_add, Nat.mul_assoc]
    omega

theorem value_cons (c : Char) (ds : List Char) :
    value (c :: ds) = Nat.pow 10 ds.length * digitValue c + value ds := by
  rw [value, List.foldl_cons, foldl_eq_value]
  simp

theorem value_zeros (k : Nat) (ds : List Char) :
    value (List.replicate k '0' ++ ds) = value ds := by
  induction k with
  | zero => rfl
  | succ k ih =>
    rw [List.replicate_succ, List.cons_append, ← ih]
    rfl

theorem pow_ten_mono {j k : Nat} (h : j ≤ k) : Nat.pow 10 j ≤ Nat.pow 10 k :=
  Nat.pow_le_pow_right (by decide) h

/-- A row of digits writes a number below the power of ten of its length. -/
theorem value_lt {ds : List Char} (h : ∀ c ∈ ds, isDigit c = true) {k : Nat}
    (hlength : ds.length ≤ k) : value ds < Nat.pow 10 k := by
  refine Nat.lt_of_lt_of_le ?_ (pow_ten_mono hlength)
  clear hlength
  induction ds with
  | nil => exact Nat.one_pos
  | cons c ds ih =>
    have hrest : value ds < Nat.pow 10 ds.length := ih fun d hd => h d (List.mem_cons_of_mem c hd)
    have hdigit : digitValue c ≤ 9 := Nat.le_of_lt_succ (digitValue_lt (h c List.mem_cons_self))
    have hvalue := value_cons c ds
    have hpow : Nat.pow 10 (c :: ds).length = Nat.pow 10 ds.length * 10 := rfl
    have hmul := Nat.mul_le_mul_left (Nat.pow 10 ds.length) hdigit
    omega

theorem isWritable_natCast {n : Nat} : isWritable n = true ↔ n < bound := by
  rw [isWritable, decide_eq_true_iff, Int.natAbs_natCast]

theorem value_lt_bound {ds : List Char} (h : ∀ c ∈ ds, isDigit c = true)
    (hlength : ds.length ≤ longest) : value ds < bound := by
  unfold bound
  exact value_lt h hlength

/-! ## Leading zeros -/

theorem toList_padded (width n : Nat) : (padded width n).toList =
    List.replicate (width - (digits n).length) '0' ++ digits n := by
  simp [padded]

theorem isDigit_of_mem_padded {width n : Nat} {c : Char} (h : c ∈ (padded width n).toList) :
    isDigit c = true := by
  rw [toList_padded, List.mem_append] at h
  rcases h with h | h
  · rw [List.eq_of_mem_replicate h]
    decide
  · exact isDigit_of_mem_digits h

theorem value_padded (width n : Nat) : value (padded width n).toList = n := by
  rw [toList_padded, value_zeros, value_digits]

theorem length_padded {width n : Nat} (hwidth : 0 < width) (h : n < Nat.pow 10 width) :
    (padded width n).toList.length = width := by
  have hlength := length_digits_le hwidth h
  rw [toList_padded, List.length_append, List.length_replicate]
  omega

/-! ## Where digits end -/

/-- The text does not go on with a digit. -/
def EndsDigits (rest : List Char) : Prop := ∀ c ∈ rest.head?, isDigit c = false

theorem span_isDigit {ds rest : List Char} (hds : ∀ c ∈ ds, isDigit c = true)
    (hrest : EndsDigits rest) : (ds ++ rest).span isDigit = (ds, rest) := by
  rw [List.span_eq_takeWhile_dropWhile, List.takeWhile_append_of_pos hds,
    List.dropWhile_append_of_pos hds]
  cases rest with
  | nil => simp
  | cons c rest => simp [hrest c rfl]

end WorkspaceAudit.Text.Decimal
