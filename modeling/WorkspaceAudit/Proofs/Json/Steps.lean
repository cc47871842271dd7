import WorkspaceAudit.Json.Parser

/-!
# The steps of the readers

What a reader finds follows from what the readers of its parts find with less fuel. The relations
below have one constructor for each way in which a reader can end; the proofs about the readers go
by these ways and do not look into the readers.

- `ValueStep`, `ItemsStep`, `MembersStep`: the ways in which the three readers end.
- `value_step`, `items_step`, `members_step`: a reader ends in one of these ways.
- `ValueStep.eq`, `ItemsStep.eq`, `MembersStep.eq`: it ends in each way that is open to it.
-/

namespace WorkspaceAudit.Json

/-- The text begins neither a text nor an array nor an object. -/
def BeginsPlain (s : List Char) : Prop :=
  ∀ more, s ≠ '\x22' :: more ∧ s ≠ '[' :: more ∧ s ≠ '\x7b' :: more

theorem beginsPlain_cons {c : Char} (h : c ∉ ['\x22', '[', '\x7b']) (s : List Char) :
    BeginsPlain (c :: s) := by
  simp only [List.mem_cons, List.not_mem_nil, or_false, not_or] at h
  exact fun more => ⟨fun heq => h.1 (List.cons.inj heq).1, fun heq => h.2.1 (List.cons.inj heq).1,
    fun heq => h.2.2 (List.cons.inj heq).1⟩

variable {τ : Type} [BEq τ]

/-- The ways in which the reader of values ends. -/
inductive ValueStep (d : Dialect τ) (fuel depth : Nat) : List Char → Read (Json τ) → Prop where
  | text {more rest : List Char} {t : τ} (text : d.text? more = some (t, rest)) :
    ValueStep d fuel depth ('\x22' :: more) (.ok (.string t, rest))
  | noText {more : List Char} (text : d.text? more = none) :
    ValueStep d fuel depth ('\x22' :: more) (.error .malformed)
  | deepArray {more : List Char} (deep : d.depth ≤ depth)
    (counts : d.countsEmpty = true ∨ ∀ rest, skipGap more ≠ ']' :: rest) :
    ValueStep d fuel depth ('[' :: more) (.error (.tooDeep true))
  | emptyArray {more rest : List Char} (shallow : (d.countsEmpty && d.depth ≤ depth) = false)
    (close : skipGap more = ']' :: rest) :
    ValueStep d fuel depth ('[' :: more) (.ok (.array [], rest))
  | array {more rest : List Char} {vs : List (Json τ)} (shallow : ¬d.depth ≤ depth)
    (filled : ∀ rest, skipGap more ≠ ']' :: rest)
    (items : items d fuel (depth + 1) (skipGap more) = .ok (vs, rest)) :
    ValueStep d fuel depth ('[' :: more) (.ok (.array vs, rest))
  | noItems {more : List Char} {e : ReadError} (shallow : ¬d.depth ≤ depth)
    (filled : ∀ rest, skipGap more ≠ ']' :: rest)
    (items : items d fuel (depth + 1) (skipGap more) = .error e) :
    ValueStep d fuel depth ('[' :: more) (.error e)
  | deepObject {more : List Char} (deep : d.depth ≤ depth)
    (counts : d.countsEmpty = true ∨ ∀ rest, skipGap more ≠ '\x7d' :: rest) :
    ValueStep d fuel depth ('\x7b' :: more) (.error (.tooDeep false))
  | emptyObject {more rest : List Char} (shallow : (d.countsEmpty && d.depth ≤ depth) = false)
    (close : skipGap more = '\x7d' :: rest) :
    ValueStep d fuel depth ('\x7b' :: more) (.ok (.object [], rest))
  | object {more rest : List Char} {ms : List (τ × Json τ)} (shallow : ¬d.depth ≤ depth)
    (filled : ∀ rest, skipGap more ≠ '\x7d' :: rest)
    (members : members d fuel (depth + 1) [] (skipGap more) = .ok (ms, rest)) :
    ValueStep d fuel depth ('\x7b' :: more) (.ok (.object ms, rest))
  | noMembers {more : List Char} {e : ReadError} (shallow : ¬d.depth ≤ depth)
    (filled : ∀ rest, skipGap more ≠ '\x7d' :: rest)
    (members : members d fuel (depth + 1) [] (skipGap more) = .error e) :
    ValueStep d fuel depth ('\x7b' :: more) (.error e)
  | word {s rest : List Char} {v : Json τ} (plain : BeginsPlain s)
    (word : word? s = some (v, rest)) : ValueStep d fuel depth s (.ok (v, rest))
  | number {s : List Char} {r : Read (Json τ)} (plain : BeginsPlain s)
    (word : word? (τ := τ) s = none) (number : number d s = r) : ValueStep d fuel depth s r

/-- The ways in which the reader of items ends. -/
inductive ItemsStep (d : Dialect τ) (fuel depth : Nat) (s : List Char) :
    Read (List (Json τ)) → Prop where
  | noValue {e : ReadError} (value : value d fuel depth s = .error e) :
    ItemsStep d fuel depth s (.error e)
  | last {v : Json τ} {rest more : List Char} (value : value d fuel depth s = .ok (v, rest))
    (close : skipGap rest = ']' :: more) : ItemsStep d fuel depth s (.ok ([v], more))
  | cons {v : Json τ} {vs : List (Json τ)} {rest more last : List Char}
    (value : value d fuel depth s = .ok (v, rest)) (comma : skipGap rest = ',' :: more)
    (items : items d fuel depth (skipGap more) = .ok (vs, last)) :
    ItemsStep d fuel depth s (.ok (v :: vs, last))
  | noItems {v : Json τ} {rest more : List Char} {e : ReadError}
    (value : value d fuel depth s = .ok (v, rest)) (comma : skipGap rest = ',' :: more)
    (items : items d fuel depth (skipGap more) = .error e) : ItemsStep d fuel depth s (.error e)
  | noSign {v : Json τ} {rest : List Char} (value : value d fuel depth s = .ok (v, rest))
    (sign : ∀ more, skipGap rest ≠ ']' :: more ∧ skipGap rest ≠ ',' :: more) :
    ItemsStep d fuel depth s (.error .malformed)

/-- The ways in which the reader of members ends. -/
inductive MembersStep (d : Dialect τ) (fuel depth : Nat) (before : List (τ × Json τ)) :
    List Char → Read (List (τ × Json τ)) → Prop where
  | noQuote {s : List Char} (quote : ∀ more, s ≠ '\x22' :: more) :
    MembersStep d fuel depth before s (.error .malformed)
  | noName {more : List Char} (named : d.text? more = none) :
    MembersStep d fuel depth before ('\x22' :: more) (.error .malformed)
  | noColon {more rest : List Char} {name : τ} (named : d.text? more = some (name, rest))
    (colon : ∀ after, skipGap rest ≠ ':' :: after) :
    MembersStep d fuel depth before ('\x22' :: more) (.error .malformed)
  | noValue {more rest after : List Char} {name : τ} {e : ReadError}
    (named : d.text? more = some (name, rest)) (colon : skipGap rest = ':' :: after)
    (value : value d fuel depth (skipGap after) = .error e) :
    MembersStep d fuel depth before ('\x22' :: more) (.error e)
  | last {more rest after next last : List Char} {name : τ} {v : Json τ}
    (named : d.text? more = some (name, rest)) (colon : skipGap rest = ':' :: after)
    (value : value d fuel depth (skipGap after) = .ok (v, next))
    (close : skipGap next = '\x7d' :: last) :
    MembersStep d fuel depth before ('\x22' :: more) (.ok (putMember name v before, last))
  | cons {more rest after next others : List Char} {name : τ} {v : Json τ}
    {r : Read (List (τ × Json τ))} (named : d.text? more = some (name, rest))
    (colon : skipGap rest = ':' :: after)
    (value : value d fuel depth (skipGap after) = .ok (v, next))
    (comma : skipGap next = ',' :: others)
    (members : members d fuel depth (putMember name v before) (skipGap others) = r) :
    MembersStep d fuel depth before ('\x22' :: more) r
  | noSign {more rest after next : List Char} {name : τ} {v : Json τ}
    (named : d.text? more = some (name, rest)) (colon : skipGap rest = ':' :: after)
    (value : value d fuel depth (skipGap after) = .ok (v, next))
    (sign : ∀ last, skipGap next ≠ '\x7d' :: last ∧ skipGap next ≠ ',' :: last) :
    MembersStep d fuel depth before ('\x22' :: more) (.error .malformed)

/-! ## Each reader ends in one of its ways -/

theorem value_zero (d : Dialect τ) (depth : Nat) (s : List Char) :
    value d 0 depth s = .error .malformed :=
  rfl

theorem items_zero (d : Dialect τ) (depth : Nat) (s : List Char) :
    items d 0 depth s = .error .malformed :=
  rfl

theorem members_zero (d : Dialect τ) (depth : Nat) (before : List (τ × Json τ)) (s : List Char) :
    members d 0 depth before s = .error .malformed :=
  rfl

/-- How the reader ends after a bracket. The bound on the depth is looked at twice, since it may or
may not count for an empty array. -/
theorem array_step (d : Dialect τ) (fuel depth : Nat) (more : List Char) :
    ValueStep d fuel depth ('[' :: more) (value d (fuel + 1) depth ('[' :: more)) := by
  rw [value]
  split
  · -- It counts for an empty array, too, and is reached.
    rename_i hdeep
    simp only [Bool.and_eq_true, decide_eq_true_eq] at hdeep
    exact .deepArray hdeep.2 (.inl hdeep.1)
  rename_i hshallow
  split
  · -- The array is empty.
    exact .emptyArray (Bool.eq_false_iff.2 hshallow) ‹_›
  rename_i hfilled
  split
  · -- The array has an item, for which the bound is reached.
    exact .deepArray ‹_› (.inr hfilled)
  split
  · exact .array ‹_› hfilled ‹_›
  · exact .noItems ‹_› hfilled ‹_›

/-- How the reader ends after a brace. -/
theorem object_step (d : Dialect τ) (fuel depth : Nat) (more : List Char) :
    ValueStep d fuel depth ('\x7b' :: more) (value d (fuel + 1) depth ('\x7b' :: more)) := by
  rw [value]
  split
  · -- The bound counts for an empty object, too, and is reached.
    rename_i hdeep
    simp only [Bool.and_eq_true, decide_eq_true_eq] at hdeep
    exact .deepObject hdeep.2 (.inl hdeep.1)
  rename_i hshallow
  split
  · -- The object is empty.
    exact .emptyObject (Bool.eq_false_iff.2 hshallow) ‹_›
  rename_i hfilled
  split
  · -- The object has a member, for which the bound is reached.
    exact .deepObject ‹_› (.inr hfilled)
  split
  · exact .object ‹_› hfilled ‹_›
  · exact .noMembers ‹_› hfilled ‹_›

theorem value_step (d : Dialect τ) (fuel depth : Nat) (s : List Char) :
    ValueStep d fuel depth s (value d (fuel + 1) depth s) := by
  unfold value
  split
  · -- A quote: a text.
    split
    · exact .text ‹_›
    · exact .noText ‹_›
  · exact array_step d fuel depth _
  · exact object_step d fuel depth _
  · -- Any other beginning is that of a word or of a number.
    rename_i hquote hbracket hbrace
    have hplain : BeginsPlain s := fun more => ⟨hquote more, hbracket more, hbrace more⟩
    split
    · exact .word hplain ‹_›
    · exact .number hplain ‹_› rfl

theorem items_step (d : Dialect τ) (fuel depth : Nat) (s : List Char) :
    ItemsStep d fuel depth s (items d (fuel + 1) depth s) := by
  unfold items
  split
  · exact .noValue ‹_›
  rename_i hvalue
  -- After the item: the closing bracket, a comma, or neither of them.
  split
  · exact .last hvalue ‹_›
  · rename_i hcomma
    split
    · exact .cons hvalue hcomma ‹_›
    · exact .noItems hvalue hcomma ‹_›
  · rename_i hclose hcomma
    exact .noSign hvalue fun more => ⟨hclose more, hcomma more⟩

theorem members_step (d : Dialect τ) (fuel depth : Nat) (before : List (τ × Json τ))
    (s : List Char) :
    MembersStep d fuel depth before s (members d (fuel + 1) depth before s) := by
  unfold members
  split
  · -- A quote: the name of a member, up to the next quote.
    split
    · exact .noName ‹_›
    rename_i hname
    split
    · rename_i hcolon
      split
      · exact .noValue hname hcolon ‹_›
      rename_i hvalue
      simp only
      -- After the value: the closing brace, a comma, or neither of them.
      split
      · exact .last hname hcolon hvalue ‹_›
      · exact .cons hname hcolon hvalue ‹_› rfl
      · rename_i hclose hcomma
        exact .noSign hname hcolon hvalue fun last => ⟨hclose last, hcomma last⟩
    · exact .noColon hname ‹_›
  · exact .noQuote ‹_›

/-! ## Each reader ends in every way that is open to it -/

variable {d : Dialect τ} {fuel depth : Nat} {s : List Char}

theorem ValueStep.eq {r : Read (Json τ)} (h : ValueStep d fuel depth s r) :
    value d (fuel + 1) depth s = r := by
  cases h with
  | text text => rw [value, text]
  | noText text => rw [value, text]
  | deepArray deep counts =>
    rw [value]
    rcases counts with counts | filled
    · rw [if_pos (by simp [counts, deep])]
    · simp only [if_pos deep, ite_self]
  | emptyArray shallow close => simp only [value, shallow, Bool.false_eq_true, if_false, close]
  | array shallow filled items =>
    rw [value, if_neg (by simp [shallow])]
    split
    · exact absurd ‹_› (filled _)
    · rw [if_neg shallow, items]
  | noItems shallow filled items =>
    rw [value, if_neg (by simp [shallow])]
    split
    · exact absurd ‹_› (filled _)
    · rw [if_neg shallow, items]
  | deepObject deep counts =>
    rw [value]
    rcases counts with counts | filled
    · rw [if_pos (by simp [counts, deep])]
    · simp only [if_pos deep, ite_self]
  | emptyObject shallow close => simp only [value, shallow, Bool.false_eq_true, if_false, close]
  | object shallow filled members =>
    rw [value, if_neg (by simp [shallow])]
    split
    · exact absurd ‹_› (filled _)
    · rw [if_neg shallow, members]
  | noMembers shallow filled members =>
    rw [value, if_neg (by simp [shallow])]
    split
    · exact absurd ‹_› (filled _)
    · rw [if_neg shallow, members]
  | word plain word =>
    rw [value, word]
    · exact fun more => (plain more).1
    · exact fun more => (plain more).2.1
    · exact fun more => (plain more).2.2
  | number plain word number =>
    rw [value, word, ← number]
    · exact fun more => (plain more).1
    · exact fun more => (plain more).2.1
    · exact fun more => (plain more).2.2

theorem ItemsStep.eq {r : Read (List (Json τ))} (h : ItemsStep d fuel depth s r) :
    items d (fuel + 1) depth s = r := by
  cases h with
  | noValue value => rw [items, value]
  | last value close => simp only [items, value, close]
  | cons value comma items => simp only [Json.items, value, comma, items]
  | noItems value comma items => simp only [Json.items, value, comma, items]
  | noSign value sign =>
    simp only [items, value]
    split
    · exact absurd ‹_› (sign _).1
    · exact absurd ‹_› (sign _).2
    · rfl

theorem MembersStep.eq {before : List (τ × Json τ)} {r : Read (List (τ × Json τ))}
    (h : MembersStep d fuel depth before s r) : members d (fuel + 1) depth before s = r := by
  cases h with
  | noQuote quote =>
    rw [members]
    exact quote
  | noName named => rw [members, named]
  | noColon named colon => simp only [members, named]
  | noValue named colon value => simp only [members, named, colon, value]
  | last named colon value close => simp only [members, named, colon, value, close]
  | cons named colon value comma members =>
    simp only [Json.members, named, colon, value, comma, members]
  | noSign named colon value sign =>
    simp only [members, named, colon, value]
    split
    · exact absurd ‹_› (sign _).1
    · exact absurd ‹_› (sign _).2
    · rfl

end WorkspaceAudit.Json
