import WorkspaceAudit.Proofs.Json.Steps
import WorkspaceAudit.Proofs.Text.Decimal

/-!
# Numbers that have been read

A text with a whole number of too many digits is refused, so no value that is read holds one.

- `Moderate v`: no whole number in `v` is too long.
- `moderate_of_parse`: this holds of every value that is read, in every dialect.
-/

namespace WorkspaceAudit.Json

open Text.Decimal

variable {τ : Type}

/-- No whole number in the value has more than `longest` digits. -/
inductive Moderate : Json τ → Prop where
  | null : Moderate .null
  | bool {b : Bool} : Moderate (.bool b)
  | int {n : Int} (h : isWritable n = true) : Moderate (.int n)
  | float {x : Binary} : Moderate (.float x)
  | string {s : τ} : Moderate (.string s)
  | array {items : List (Json τ)} (h : ∀ v ∈ items, Moderate v) : Moderate (.array items)
  | object {members : List (τ × Json τ)} (h : ∀ m ∈ members, Moderate m.2) :
    Moderate (.object members)

/-- The whole part of a number is a row of digits. -/
theorem isDigit_of_wholePart? {s whole rest : List Char}
    (h : wholePart? s = some (whole, rest)) : ∀ c ∈ whole, isDigit c = true := by
  unfold wholePart? at h
  split at h
  · obtain ⟨rfl, rfl⟩ : ['0'] = whole ∧ _ = rest := by simpa using h
    intro c hc
    rw [List.mem_singleton.1 hc]
    rfl
  · rw [List.span_eq_takeWhile_dropWhile] at h
    split at h
    · cases h
    · rename_i hspan
      obtain ⟨rfl, rfl⟩ : _ = whole ∧ _ = rest := by simpa using h
      intro c hc
      rw [← (Prod.mk.inj hspan).1] at hc
      exact List.all_eq_true.1 List.all_takeWhile c hc

variable {d : Dialect τ} {v : Json τ} {s rest : List Char} {fuel depth : Nat}

theorem moderate_of_unsigned {negative : Bool} (h : unsigned d negative s = .ok (v, rest)) :
    Moderate v := by
  unfold unsigned at h
  split at h
  · cases h
  · rename_i whole more hwhole
    have hdigits := isDigit_of_wholePart? hwhole
    simp only at h
    split at h
    · cases h
    · rename_i hlength
      split at h
      · obtain ⟨rfl, -⟩ := Prod.mk.inj (Except.ok.inj h)
        exact .float
      · rename_i hfractional
        obtain ⟨rfl, -⟩ := Prod.mk.inj (Except.ok.inj h)
        have hshort : whole.length ≤ longest := by
          simp only [Bool.not_eq_true] at hfractional
          simpa [hfractional] using hlength
        have hvalue := value_lt_bound hdigits hshort
        refine .int ?_
        split <;> simpa [isWritable] using hvalue

theorem moderate_of_number (h : number d s = .ok (v, rest)) : Moderate v := by
  unfold number at h
  split at h
  · split at h
    · obtain ⟨rfl, -⟩ := Prod.mk.inj (Except.ok.inj h)
      exact .float
    · exact moderate_of_unsigned h
  · exact moderate_of_unsigned h

theorem moderate_of_word? (h : word? s = some (v, rest)) : Moderate v := by
  obtain ⟨⟨word, w⟩, hmem, hword⟩ := List.exists_of_findSome?_eq_some h
  obtain ⟨more, -, hpair⟩ := Option.map_eq_some_iff.1 hword
  obtain ⟨rfl, -⟩ := Prod.mk.inj hpair
  simp only [words, List.mem_cons, Prod.mk.injEq, List.not_mem_nil, or_false] at hmem
  rcases hmem with ⟨-, rfl⟩ | ⟨-, rfl⟩ | ⟨-, rfl⟩ | ⟨-, rfl⟩ | ⟨-, rfl⟩ <;> constructor

variable [BEq τ]

theorem mem_putMember {name : τ} {before : List (τ × Json τ)} {m : τ × Json τ}
    (h : m ∈ putMember name v before) : m ∈ before ∨ m.2 = v := by
  induction before with
  | nil =>
    obtain rfl := List.mem_singleton.1 h
    exact .inr rfl
  | cons first before ih =>
    obtain ⟨other, w⟩ := first
    rw [putMember] at h
    split at h
    · rcases List.mem_cons.1 h with rfl | h
      · exact .inr rfl
      · exact .inl (List.mem_cons_of_mem _ h)
    · rcases List.mem_cons.1 h with rfl | h
      · exact .inl List.mem_cons_self
      · exact (ih h).imp_left (List.mem_cons_of_mem _)

/-- What the readers give with some fuel holds no number that is too long. -/
structure ReadsModerate (d : Dialect τ) (fuel : Nat) : Prop where
  value : ∀ {depth s v rest}, value d fuel depth s = .ok (v, rest) → Moderate v
  items : ∀ {depth s vs rest}, items d fuel depth s = .ok (vs, rest) → ∀ v ∈ vs, Moderate v
  members : ∀ {depth before s ms rest}, (∀ m ∈ before, Moderate m.2) →
    members d fuel depth before s = .ok (ms, rest) → ∀ m ∈ ms, Moderate m.2

namespace ReadsModerate

theorem value_succ (ih : ReadsModerate d fuel)
    (h : ValueStep d fuel depth s (.ok (v, rest))) : Moderate v := by
  cases h with
  | text => exact .string
  | emptyArray => exact .array fun _ hv => absurd hv List.not_mem_nil
  | array shallow filled items => exact .array (ih.items items)
  | emptyObject => exact .object fun _ hm => absurd hm List.not_mem_nil
  | object shallow filled members =>
    exact .object (ih.members (fun _ hm => absurd hm List.not_mem_nil) members)
  | word plain word => exact moderate_of_word? word
  | number plain word number => exact moderate_of_number number

theorem items_succ (ih : ReadsModerate d fuel) {vs : List (Json τ)}
    (h : ItemsStep d fuel depth s (.ok (vs, rest))) : ∀ v ∈ vs, Moderate v := by
  cases h with
  | last value close => exact List.forall_mem_singleton.2 (ih.value value)
  | cons value comma items => exact List.forall_mem_cons.2 ⟨ih.value value, ih.items items⟩

theorem members_succ (ih : ReadsModerate d fuel) {before ms : List (τ × Json τ)}
    (hbefore : ∀ m ∈ before, Moderate m.2)
    (h : MembersStep d fuel depth before s (.ok (ms, rest))) : ∀ m ∈ ms, Moderate m.2 := by
  have hput {name : τ} {w : Json τ} (hw : Moderate w) :
      ∀ m ∈ putMember name w before, Moderate m.2 := by
    intro m hm
    rcases mem_putMember hm with hm | hm
    · exact hbefore m hm
    · rw [hm]
      exact hw
  cases h with
  | last named colon value close => exact hput (ih.value value)
  | cons named colon value comma members => exact ih.members (hput (ih.value value)) members

end ReadsModerate

theorem readsModerate (d : Dialect τ) (fuel : Nat) : ReadsModerate d fuel := by
  induction fuel with
  | zero =>
    refine ⟨fun h => ?_, fun h => ?_, fun _ h => ?_⟩
    · rw [value_zero] at h
      cases h
    · rw [items_zero] at h
      cases h
    · rw [members_zero] at h
      cases h
  | succ fuel ih =>
    exact ⟨fun h => ih.value_succ (h ▸ value_step ..), fun h => ih.items_succ (h ▸ items_step ..),
      fun hbefore h => ih.members_succ hbefore (h ▸ members_step ..)⟩

/-- **No value that is read holds a number that is too long.** -/
theorem moderate_of_parse (h : parse d s = .ok v) : Moderate v := by
  unfold parse at h
  split at h
  · rename_i hvalue
    split at h
    · obtain rfl := Except.ok.inj h
      exact (readsModerate d _).value hvalue
    · cases h
  · cases h

end WorkspaceAudit.Json
