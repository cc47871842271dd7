import WorkspaceAudit.Text.Utf8

/-!
# Texts are read back from their bytes

- `begin_one` to `begin_four`: what the first byte of a character says.
- `piecesFrom_encodeChar`: the bytes of a character are read as that character.
- `decode?_encode`: so is a whole text.
-/

namespace WorkspaceAudit.Text.Utf8

/-! ## Bytes -/

theorem begin_one : ∀ n < 0x80, begin n.toUInt8 = ([.char (Char.ofNat n)], .ready) := by decide

theorem begin_two : ∀ k < 32, 2 ≤ k →
    begin (0xc0 + k).toUInt8 = ([], .within k 1 0x80 0xbf) := by decide

/-- The range of the second byte leaves out overlong forms and halves of pairs. -/
theorem begin_three : ∀ k < 16, begin (0xe0 + k).toUInt8 =
    ([], .within k 2 (if k = 0 then 0xa0 else 0x80) (if k = 13 then 0x9f else 0xbf)) := by decide

/-- The range of the second byte leaves out overlong forms and what is no code point. -/
theorem begin_four : ∀ k < 5, begin (0xf0 + k).toUInt8 =
    ([], .within k 3 (if k = 0 then 0x90 else 0x80) (if k = 4 then 0x8f else 0xbf)) := by decide

theorem piecesFrom_begin {b : UInt8} {state : State} (h : begin b = ([], state))
    (rest : List UInt8) : piecesFrom .ready (b :: rest) = piecesFrom state rest := by
  simp [piecesFrom, step, h]

/-- A byte with six more bits is in the range that the state allows. -/
theorem step_within {bits missing x : Nat} {low high : UInt8} (hx : x < 64)
    (hlow : low.toNat ≤ 0x80 + x) (hhigh : 0x80 + x ≤ high.toNat) :
    step (.within bits missing low high) (0x80 + x).toUInt8 =
      if missing ≤ 1 then ([.char (Char.ofNat (bits * 64 + x))], .ready)
      else ([], .within (bits * 64 + x) (missing - 1) 0x80 0xbf) := by
  have hbyte : (0x80 + x).toUInt8.toNat = 0x80 + x := by
    rw [Nat.toUInt8_eq, UInt8.toNat_ofNat_of_lt']
    exact Nat.lt_of_le_of_lt hhigh high.toNat_lt
  have hrange :
      (decide (low ≤ (0x80 + x).toUInt8) && decide ((0x80 + x).toUInt8 ≤ high)) = true := by
    simp only [Bool.and_eq_true, decide_eq_true_eq, UInt8.le_iff_toNat_le, hbyte]
    exact ⟨hlow, hhigh⟩
  have hbits : (0x80 + x) % 64 = x := by omega
  simp only [step, hrange, if_true, hbyte, hbits]

theorem piecesFrom_last {bits x : Nat} {low high : UInt8} (hx : x < 64)
    (hlow : low.toNat ≤ 0x80 + x) (hhigh : 0x80 + x ≤ high.toNat) (rest : List UInt8) :
    piecesFrom (.within bits 1 low high) ((0x80 + x).toUInt8 :: rest) =
      .char (Char.ofNat (bits * 64 + x)) :: piecesFrom .ready rest := by
  rw [piecesFrom, step_within hx hlow hhigh]
  rfl

theorem piecesFrom_more {bits missing x : Nat} {low high : UInt8} (hx : x < 64)
    (hlow : low.toNat ≤ 0x80 + x) (hhigh : 0x80 + x ≤ high.toNat) (rest : List UInt8) :
    piecesFrom (.within bits (missing + 2) low high) ((0x80 + x).toUInt8 :: rest) =
      piecesFrom (.within (bits * 64 + x) (missing + 1) 0x80 0xbf) rest := by
  rw [piecesFrom, step_within hx hlow hhigh, if_neg (by omega)]
  rfl

/-! ## Characters -/

/-- **The bytes of a character are read as that character.** -/
theorem piecesFrom_encodeChar (c : Char) (rest : List UInt8) :
    piecesFrom .ready (encodeChar c ++ rest) = .char c :: piecesFrom .ready rest := by
  have hvalid : c.toNat < 0xd800 ∨ (0xdfff < c.toNat ∧ c.toNat < 0x110000) := c.valid
  -- By the number of bytes. The second byte has bounds of its own after some first bytes, which
  -- keep out what has a shorter form, the surrogates, and what is beyond the last character.
  unfold encodeChar
  by_cases hone : c.toNat < 0x80
  · simp only [hone, if_true, List.cons_append, List.nil_append, piecesFrom, step, begin_one _ hone,
      Char.ofNat_toNat]
  by_cases htwo : c.toNat < 0x800
  · have hcode : c.toNat / 64 * 64 + c.toNat % 64 = c.toNat := by omega
    simp only [hone, htwo, if_true, if_false, List.cons_append, List.nil_append]
    rw [piecesFrom_begin (begin_two _ (by omega) (by omega)),
      piecesFrom_last (by omega) (by simp) (by simp; omega), hcode, Char.ofNat_toNat]
  by_cases hthree : c.toNat < 0x10000
  · have hcode : (c.toNat / 4096 * 64 + c.toNat / 64 % 64) * 64 + c.toNat % 64 = c.toNat := by
      omega
    simp only [hone, htwo, hthree, if_true, if_false, List.cons_append, List.nil_append]
    rw [piecesFrom_begin (begin_three _ (by omega)),
      piecesFrom_more (by omega) (by split <;> simp; omega) (by split <;> simp <;> omega),
      piecesFrom_last (by omega) (by simp) (by simp; omega), hcode, Char.ofNat_toNat]
  · have hcode : ((c.toNat / 262144 * 64 + c.toNat / 4096 % 64) * 64 + c.toNat / 64 % 64) * 64 +
        c.toNat % 64 = c.toNat := by omega
    simp only [hone, htwo, hthree, if_false, List.cons_append, List.nil_append]
    rw [piecesFrom_begin (begin_four _ (by omega)),
      piecesFrom_more (by omega) (by split <;> simp; omega) (by split <;> simp <;> omega),
      piecesFrom_more (by omega) (by simp) (by simp; omega),
      piecesFrom_last (by omega) (by simp) (by simp; omega), hcode, Char.ofNat_toNat]

theorem piecesFrom_encode (s : List Char) : piecesFrom .ready (encode s) = s.map .char := by
  induction s with
  | nil => rfl
  | cons c s ih =>
    rw [encode, List.flatMap_cons, piecesFrom_encodeChar, List.map_cons, ← ih, encode]

/-- **A text is read back from its bytes.** -/
theorem decode?_encode (s : List Char) : decode? (encode s) = some s := by
  rw [decode?, piecesFrom_encode]
  induction s with
  | nil => rfl
  | cons c s ih => simp [ih]

end WorkspaceAudit.Text.Utf8
