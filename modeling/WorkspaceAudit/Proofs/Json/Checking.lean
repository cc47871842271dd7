import WorkspaceAudit.Json.Check
import WorkspaceAudit.Proofs.Json.Reading

/-!
# What checks let through

- `Checked.and_eq_ok_iff`, `Check.required_eq_ok_iff`, `Check.withDefault_eq_ok_iff`,
  `Check.itemsFrom_eq_ok_iff`: when a check of several fields, of one field or of the items of a
  list succeeds.
- `Check.isWritable_of_integer`: a whole number that a check finds in a value is no longer than
  those of the value may be.
-/

namespace WorkspaceAudit

open Text.Decimal

namespace Checked

variable {α β : Type}

theorem and_eq_ok_iff {x : Checked α} {y : Checked β} {p : α × β} :
    x.and y = .ok p ↔ x = .ok p.1 ∧ y = .ok p.2 := by
  obtain ⟨a, b⟩ := p
  cases x <;> cases y <;> simp [Checked.and]

theorem under_eq_ok_iff {x : Checked α} {step : Step} {a : α} :
    x.under step = .ok a ↔ x = .ok a := by
  cases x <;> simp [under]

theorem map_eq_ok_iff {x : Checked α} {f : α → β} {b : β} :
    Except.map f x = .ok b ↔ ∃ a, x = .ok a ∧ f a = b := by
  cases x <;> simp [Except.map]

theorem bind_eq_ok_iff {x : Checked α} {f : α → Checked β} {b : β} :
    Except.bind x f = .ok b ↔ ∃ a, x = .ok a ∧ f a = .ok b := by
  cases x <;> simp [Except.bind]

end Checked

namespace Check

open Json (Moderate)

variable {α : Type} {check : Json → Checked α} {m : List (String × Json)} {name : String} {a : α}

theorem required_eq_ok_iff :
    required check m name = .ok a ↔ ∃ v, m.lookup name = some v ∧ check v = .ok a := by
  rw [required, Checked.under_eq_ok_iff]
  cases m.lookup name <;> simp [Checked.fail]

theorem withDefault_eq_ok_iff {default : α} : withDefault default check m name = .ok a ↔
    (∃ v, m.lookup name = some v ∧ check v = .ok a) ∨ (m.lookup name = none ∧ default = a) := by
  rw [withDefault]
  cases m.lookup name <;> simp [Checked.under_eq_ok_iff]

theorem nullable_eq_ok_iff {v : Json} {a : Option α} : nullable check v = .ok a ↔
    (v = .null ∧ none = a) ∨ (v ≠ .null ∧ ∃ b, check v = .ok b ∧ some b = a) := by
  cases v <;> simp [nullable, Checked.map_eq_ok_iff]

theorem itemsFrom_eq_ok_iff {i : Nat} {vs : List Json} {as : List α} :
    itemsFrom check i vs = .ok as ↔ vs.map check = as.map .ok := by
  induction vs generalizing i as with
  | nil => cases as <;> simp [itemsFrom]
  | cons v vs ih =>
    rw [itemsFrom, Checked.map_eq_ok_iff]
    cases as with
    | nil => simp
    | cons a as => simp [Checked.and_eq_ok_iff, Checked.under_eq_ok_iff, ih]

/-- Each item of a list comes from one of the value's items. -/
theorem exists_of_mem_list {v : Json} {as : List α} (h : list check v = .ok as) (ha : a ∈ as) :
    ∃ items, v = .array items ∧ ∃ w ∈ items, check w = .ok a := by
  cases v with
  | array items =>
    rw [list, itemsFrom_eq_ok_iff] at h
    have hmem : Except.ok a ∈ items.map check := h ▸ List.mem_map_of_mem ha
    obtain ⟨w, hw, hcheck⟩ := List.mem_map.1 hmem
    exact ⟨items, rfl, w, hw, hcheck⟩
  | _ => cases h

/-! ## Whole numbers -/

theorem isWritable_of_small {n : Int} (h : n.natAbs < Nat.pow 2 63) : isWritable n = true := by
  have hbound : Nat.pow 2 63 ≤ bound := by
    unfold bound
    exact Nat.le_trans (by decide : Nat.pow 2 63 ≤ Nat.pow 10 20) (pow_ten_mono (by decide))
  simpa [isWritable] using Nat.lt_of_lt_of_le h hbound

theorem isWritable_of_plainInteger {s : List Char} {n : Int} (h : plainInteger s = .ok n) :
    isWritable n = true := by
  unfold plainInteger at h
  split at h
  rename_i negative body hsign
  split at h
  · split at h
    · obtain rfl := Except.ok.inj h
      exact isWritable_of_small (by decide)
    · cases h
  · rw [List.span_eq_takeWhile_dropWhile] at h
    simp only at h
    split at h
    · cases h
    rename_i hlength
    split at h
    · cases h
    obtain rfl := Except.ok.inj h
    have hvalue := value_lt_bound (List.all_eq_true.1 (List.all_takeWhile (l := body)))
      (Nat.le_of_not_lt hlength)
    split <;> simpa [isWritable] using hvalue

theorem isWritable_of_integerOfText {s : List Char} {n : Int} (h : integerOfText s = .ok n) :
    isWritable n = true := by
  unfold integerOfText at h
  split at h
  · rename_i hplain
    obtain rfl := Except.ok.inj h
    exact isWritable_of_plainInteger hplain
  · split at h
    · cases h
    split at h
    · rename_i hform
      obtain rfl := Except.ok.inj h
      obtain ⟨form, -, hplain⟩ := Option.map_eq_some_iff.1 hform
      exact isWritable_of_plainInteger hplain
    · cases h

theorem isWritable_of_integerOfBinary {x : Binary} {n : Int} (h : integerOfBinary x = .ok n) :
    isWritable n = true := by
  unfold integerOfBinary at h
  split at h
  · split at h
    · split at h
      · obtain rfl := Except.ok.inj h
        exact isWritable_of_small ‹_›
      · cases h
    · cases h
  · cases h

/-- **A whole number that is found in a value is not too long** if none in the value is. -/
theorem isWritable_of_integer {v : Json} {n : Int} (hv : Moderate v) (h : integer v = .ok n) :
    isWritable n = true := by
  unfold integer at h
  split at h
  · obtain rfl := Except.ok.inj h
    cases hv
    assumption
  · obtain rfl := Except.ok.inj h
    exact isWritable_of_small (by split <;> decide)
  · exact isWritable_of_integerOfBinary h
  · exact isWritable_of_integerOfText h
  · cases h

/-- So is one that is found in a member. -/
theorem moderate_of_lookup {v : Json} (hm : Moderate (.object m)) (h : m.lookup name = some v) :
    Moderate v := by
  obtain ⟨front, back, rfl, -⟩ := List.lookup_eq_some_iff.1 h
  cases hm with
  | object hmembers => exact hmembers (name, v) (by simp)

theorem integerFrom_eq_ok_iff {least n : Int} {v : Json} :
    integerFrom least v = .ok n ↔ integer v = .ok n ∧ least ≤ n := by
  cases hv : integer v with
  | error ps => simp [integerFrom, hv, bind, Except.bind]
  | ok k =>
    by_cases hleast : least ≤ k
    · simp only [integerFrom, hv, bind, Except.bind, hleast, if_true, pure, Except.pure,
        Except.ok.injEq]
      exact ⟨fun h => ⟨h, h ▸ hleast⟩, And.left⟩
    · simp only [integerFrom, hv, bind, Except.bind, hleast, if_false, Checked.fail,
        Except.ok.injEq, reduceCtorEq, false_iff, not_and]
      exact fun h => h ▸ hleast

theorem integerBetween_eq_ok_iff {least greatest n : Int} {v : Json} :
    integerBetween least greatest v = .ok n ↔ integer v = .ok n ∧ least ≤ n ∧ n ≤ greatest := by
  cases hv : integerFrom least v with
  | error ps =>
    have hno : ¬(integer v = .ok n ∧ least ≤ n) := fun h => by
      rw [← integerFrom_eq_ok_iff, hv] at h
      cases h
    simp only [integerBetween, hv, bind, Except.bind, reduceCtorEq, false_iff]
    exact fun h => hno ⟨h.1, h.2.1⟩
  | ok k =>
    obtain ⟨hk, hleast⟩ := integerFrom_eq_ok_iff.1 hv
    by_cases hgreatest : k ≤ greatest
    · simp only [integerBetween, hv, bind, Except.bind, hgreatest, if_true, pure, Except.pure, hk,
        Except.ok.injEq]
      exact ⟨fun h => ⟨h, h ▸ hleast, h ▸ hgreatest⟩, And.left⟩
    · simp only [integerBetween, hv, bind, Except.bind, hgreatest, if_false, Checked.fail, hk,
        Except.ok.injEq, reduceCtorEq, false_iff]
      exact fun h => hgreatest (h.1 ▸ h.2.2)

end Check

end WorkspaceAudit
