import WorkspaceAudit.Time.Moment

/-!
# Counting days

The number of a day is a formula in its year, month and day, and the day of a number is searched for
from a guess. Here both are compared with the calendar itself, which goes from each day to the next.

- `Date.next?`: the next day, by the lengths of the months; `Date.daysLater?`: the day so many days
  later.
- `Date.daysBeforeYear_succ`, `Date.daysBeforeMonth_succ`: the formula, year by year and month by
  month; `Date.position_bounds`: a day lies between the first days of its year and the next one.
- `Date.ofDayNumber?_eq_some_iff`: the search finds the day that has the number.
- `Date.daysLater?_eq_some_iff`: the difference of two numbers counts the days from one day to the
  other.
-/

namespace WorkspaceAudit

theorem le_of_steps {f : Nat → Nat} (hstep : ∀ k, 1 ≤ k → f k ≤ f (k + 1)) {i j : Nat}
    (hi : 1 ≤ i) (hij : i ≤ j) : f i ≤ f j := by
  induction hij with
  | refl => exact Nat.le_refl _
  | @step j hij ih => exact Nat.le_trans ih (hstep j (Nat.le_trans hi hij))

/-- Steps that do not go down pass over a number at one place only. -/
theorem eq_of_between {f : Nat → Nat} (hstep : ∀ k, 1 ≤ k → f k ≤ f (k + 1)) {a b x : Nat}
    (hxa : f a ≤ x ∧ x < f (a + 1)) (hxb : f b ≤ x ∧ x < f (b + 1)) : a = b := by
  rcases Nat.lt_trichotomy a b with hlt | heq | hlt
  · have := le_of_steps hstep (Nat.le_add_left 1 a) hlt
    omega
  · exact heq
  · have := le_of_steps hstep (Nat.le_add_left 1 b) hlt
    omega

namespace Date

/-! ## Years and months -/

/-- The number of days of a year. -/
def yearLength (year : Nat) : Nat := if isLeapYear year then 366 else 365

theorem succ_div_eq (n k : Nat) : (n + 1) / k = n / k + if (n + 1) % k = 0 then 1 else 0 := by
  rw [Nat.succ_div]
  simp only [Nat.dvd_iff_mod_eq_zero]

theorem daysBeforeYear_succ {year : Nat} (h : 1 ≤ year) :
    daysBeforeYear (year + 1) = daysBeforeYear year + yearLength year := by
  obtain ⟨n, rfl⟩ : ∃ n, year = n + 1 := ⟨year - 1, by omega⟩
  have hless : n / 100 ≤ n / 4 := by omega
  have hcentury : (if (n + 1) % 100 = 0 then 1 else 0) ≤ if (n + 1) % 4 = 0 then 1 else 0 := by
    split <;> split <;> omega
  have hlength : yearLength (n + 1) + (if (n + 1) % 100 = 0 then 1 else 0) =
      365 + (if (n + 1) % 4 = 0 then 1 else 0) + if (n + 1) % 400 = 0 then 1 else 0 := by
    have : (n + 1) % 100 = 0 → (n + 1) % 4 = 0 := by omega
    have : (n + 1) % 400 = 0 → (n + 1) % 100 = 0 := by omega
    by_cases h4 : (n + 1) % 4 = 0 <;> by_cases h100 : (n + 1) % 100 = 0 <;>
      by_cases h400 : (n + 1) % 400 = 0 <;> simp_all [yearLength, isLeapYear]
  simp only [daysBeforeYear, Nat.add_sub_cancel, succ_div_eq n]
  omega

theorem foldr_add {f : Nat → Nat} (months : List Nat) (start : Nat) :
    months.foldr (fun m days => f m + days) start =
      months.foldr (fun m days => f m + days) 0 + start := by
  induction months with
  | nil => simp
  | cons m months ih => simp only [List.foldr_cons, ih, Nat.add_assoc]

theorem daysBeforeMonth_one (year : Nat) : daysBeforeMonth year 1 = 0 := rfl

theorem daysBeforeMonth_succ (year : Nat) {month : Nat} (h : 1 ≤ month) :
    daysBeforeMonth year (month + 1) = daysBeforeMonth year month + monthLength year month := by
  obtain ⟨n, rfl⟩ : ∃ n, month = n + 1 := ⟨month - 1, by omega⟩
  simp only [daysBeforeMonth, Nat.add_sub_cancel, List.range_succ, List.foldr_append,
    List.foldr_cons, List.foldr_nil, Nat.add_zero]
  exact foldr_add _ _

/-- The months of a year are the year. -/
theorem daysBeforeMonth_thirteen (year : Nat) : daysBeforeMonth year 13 = yearLength year := by
  cases h : isLeapYear year <;> simp [daysBeforeMonth, yearLength, monthLength, List.range,
    List.range.loop, h]

/-! ## Places of days -/

theorem isDate_iff {year month day : Nat} : isDate year month day = true ↔
    (1 ≤ year ∧ year ≤ 9999) ∧ (1 ≤ month ∧ month ≤ 12) ∧ 1 ≤ day ∧
      day ≤ monthLength year month := by
  simp only [isDate, isDay, Bool.and_eq_true, decide_eq_true_eq]
  omega

theorem ofNumbers?_eq_some_iff {year month day : Nat} {d : Date} :
    ofNumbers? year month day = some d ↔ d.year = year ∧ d.month = month ∧ d.day = day := by
  unfold ofNumbers?
  split
  · rw [Option.some.injEq]
    constructor
    · rintro rfl
      exact ⟨rfl, rfl, rfl⟩
    · rintro ⟨rfl, rfl, rfl⟩
      rfl
  · rename_i h
    refine ⟨by simp, ?_⟩
    rintro ⟨rfl, rfl, rfl⟩
    exact absurd d.valid h

/-- The number of days before a day, counted from the first day of the year 1. -/
def position (d : Date) : Nat :=
  daysBeforeYear d.year + (daysBeforeMonth d.year d.month + (d.day - 1))

theorem dayNumber_eq (d : Date) : d.dayNumber = (d.position : Int) - epoch := by
  obtain ⟨-, -, hday, -⟩ := isDate_iff.1 d.valid
  simp only [dayNumber, position]
  omega

theorem daysBeforeYear_step (year : Nat) (h : 1 ≤ year) :
    daysBeforeYear year ≤ daysBeforeYear (year + 1) := by
  rw [daysBeforeYear_succ h]
  exact Nat.le_add_right _ _

theorem daysBeforeMonth_step (year month : Nat) (h : 1 ≤ month) :
    daysBeforeMonth year month ≤ daysBeforeMonth year (month + 1) := by
  rw [daysBeforeMonth_succ year h]
  exact Nat.le_add_right _ _

/-- **A day lies in its year.** -/
theorem position_bounds (d : Date) :
    daysBeforeYear d.year ≤ d.position ∧ d.position < daysBeforeYear (d.year + 1) := by
  obtain ⟨hyear, hmonth, hday⟩ := isDate_iff.1 d.valid
  have hlast : daysBeforeMonth d.year (d.month + 1) ≤ daysBeforeMonth d.year 13 :=
    le_of_steps (daysBeforeMonth_step d.year) (Nat.le_add_left 1 _) (by omega)
  rw [daysBeforeMonth_succ d.year hmonth.1, daysBeforeMonth_thirteen] at hlast
  rw [daysBeforeYear_succ hyear.1, position]
  omega

/-! ## The next day -/

/-- The next day: in the same month, else the first day of the next month or year. The last day of
the calendar has none. -/
def next? (d : Date) : Option Date :=
  ((ofNumbers? d.year d.month (d.day + 1)).or (ofNumbers? d.year (d.month + 1) 1)).or
    (ofNumbers? (d.year + 1) 1 1)

/-- The day so many days later. -/
def daysLater? : Nat → Date → Option Date
  | 0, d => some d
  | n + 1, d => d.next?.bind (daysLater? n)

theorem one_le_monthLength (year month : Nat) : 1 ≤ monthLength year month := by
  unfold monthLength
  split <;> split <;> decide

theorem ofNumbers?_eq_none_iff {year month day : Nat} :
    ofNumbers? year month day = none ↔ ¬isDate year month day = true := by
  unfold ofNumbers?
  split <;> simp_all

/-- The last day of a year stands right before the next year. -/
theorem position_yearEnd {d : Date} (hmonth : d.month = 12)
    (hday : d.day = monthLength d.year d.month) : d.position + 1 = daysBeforeYear (d.year + 1) := by
  obtain ⟨hyear, hmonths, hdays⟩ := isDate_iff.1 d.valid
  have hmonths := daysBeforeMonth_succ d.year hmonths.1
  rw [hmonth, daysBeforeMonth_thirteen] at hmonths
  rw [hmonth] at hday hdays
  rw [position, daysBeforeYear_succ hyear.1, hmonth]
  omega

/-- The three ways to the next day, and the last day of the calendar. -/
theorem next?_cases (d : Date) :
    (∃ d', d.next? = some d' ∧ d'.year = d.year ∧ d'.month = d.month ∧ d'.day = d.day + 1) ∨
    (d.day = monthLength d.year d.month ∧ ∃ d', d.next? = some d' ∧ d'.year = d.year ∧
      d'.month = d.month + 1 ∧ d'.day = 1) ∨
    (d.day = monthLength d.year d.month ∧ d.month = 12 ∧
      ((∃ d', d.next? = some d' ∧ d'.year = d.year + 1 ∧ d'.month = 1 ∧ d'.day = 1) ∨
        d.next? = none ∧ d.year = 9999)) := by
  obtain ⟨hyear, hmonth, hday⟩ := isDate_iff.1 d.valid
  have hmonths := one_le_monthLength d.year (d.month + 1)
  have hyears := one_le_monthLength (d.year + 1) 1
  -- The next day, the first of the next month, the first of the next year: the first of these that
  -- is a date.
  unfold next?
  cases hnext : ofNumbers? d.year d.month (d.day + 1) with
  | some d' => exact .inl ⟨d', rfl, ofNumbers?_eq_some_iff.1 hnext⟩
  | none =>
    rw [ofNumbers?_eq_none_iff, isDate_iff] at hnext
    have hlast : d.day = monthLength d.year d.month := by omega
    refine .inr ?_
    cases hnext' : ofNumbers? d.year (d.month + 1) 1 with
    | some d' => exact .inl ⟨hlast, d', rfl, ofNumbers?_eq_some_iff.1 hnext'⟩
    | none =>
      rw [ofNumbers?_eq_none_iff, isDate_iff] at hnext'
      refine .inr ⟨hlast, by omega, ?_⟩
      cases hnext'' : ofNumbers? (d.year + 1) 1 1 with
      | some d' => exact .inl ⟨d', rfl, ofNumbers?_eq_some_iff.1 hnext''⟩
      | none =>
        rw [ofNumbers?_eq_none_iff, isDate_iff] at hnext''
        exact .inr ⟨rfl, by omega⟩

/-- **The next day has one more day before it**; behind the last day of the calendar there is
none. -/
theorem next?_position (d : Date) :
    (∃ d', d.next? = some d' ∧ d'.position = d.position + 1) ∨
      d.next? = none ∧ ∀ d' : Date, d'.position ≤ d.position := by
  obtain ⟨hyear, hmonth, hday⟩ := isDate_iff.1 d.valid
  rcases next?_cases d with ⟨d', hnext, hy, hm, hd⟩ | ⟨hlast, d', hnext, hy, hm, hd⟩ |
    ⟨hlast, hdecember, ⟨d', hnext, hy, hm, hd⟩ | ⟨hnone, hnine⟩⟩
  · refine .inl ⟨d', hnext, ?_⟩
    rw [position, position, hy, hm, hd]
    omega
  · refine .inl ⟨d', hnext, ?_⟩
    rw [position, position, hy, hm, hd, daysBeforeMonth_succ _ hmonth.1]
    omega
  · refine .inl ⟨d', hnext, ?_⟩
    rw [position_yearEnd hdecember hlast, position, hy, hm, hd, daysBeforeMonth_one]
    omega
  · refine .inr ⟨hnone, fun d' => ?_⟩
    obtain ⟨hyear', -⟩ := isDate_iff.1 d'.valid
    have hbefore := (position_bounds d').2
    have hyears : daysBeforeYear (d'.year + 1) ≤ daysBeforeYear (d.year + 1) :=
      le_of_steps daysBeforeYear_step (Nat.le_add_left 1 _) (by omega)
    have hend := position_yearEnd hdecember hlast
    omega

/-- **A day has its own place.** -/
theorem position_injective {d d' : Date} (h : d.position = d'.position) : d = d' := by
  obtain ⟨-, hmonth, hday⟩ := isDate_iff.1 d.valid
  obtain ⟨-, hmonth', hday'⟩ := isDate_iff.1 d'.valid
  have hyears : d.year = d'.year :=
    eq_of_between daysBeforeYear_step (position_bounds d) (by rw [h]; exact position_bounds d')
  have hplaces := daysBeforeMonth_succ d.year hmonth.1
  have hplaces' := daysBeforeMonth_succ d.year hmonth'.1
  rw [position, position, ← hyears] at h
  rw [← hyears] at hday'
  have hmonths : d.month = d'.month :=
    eq_of_between (x := daysBeforeMonth d.year d.month + (d.day - 1)) (daysBeforeMonth_step d.year)
      (by omega) (by omega)
  rw [← hmonths] at h
  have hself : ofNumbers? d.year d.month d.day = some d := ofNumbers?_eq_some_iff.2 ⟨rfl, rfl, rfl⟩
  have hother : ofNumbers? d.year d.month d.day = some d' :=
    ofNumbers?_eq_some_iff.2 ⟨hyears.symm, hmonths.symm, by omega⟩
  exact Option.some.inj (hself.symm.trans hother)

/-- **Going from day to day adds up.** -/
theorem daysLater?_eq_some_iff {n : Nat} {d d' : Date} :
    daysLater? n d = some d' ↔ d'.dayNumber = d.dayNumber + n := by
  rw [dayNumber_eq, dayNumber_eq]
  induction n generalizing d with
  | zero =>
    rw [daysLater?, Option.some.injEq]
    constructor
    · rintro rfl
      omega
    · intro h
      exact position_injective (by omega)
  | succ n ih =>
    rw [daysLater?]
    rcases next?_position d with ⟨next, hnext, hplace⟩ | ⟨hnone, hlast⟩
    · rw [hnext, Option.bind_some, ih]
      omega
    · have := hlast d'
      rw [hnone, Option.bind_none]
      constructor
      · simp
      · omega

/-! ## The day of a number -/

/-- The year of a day that has so many days before it, from the mean length of a year. -/
def yearOf (days : Nat) : Nat :=
  let guess := days * 400 / 146097 + 1
  if days < daysBeforeYear guess then guess - 1
  else if daysBeforeYear (guess + 1) ≤ days then guess + 1
  else guess

/-- Four centuries have 146097 days, and before a year there are as many as that mean says, up to
two days less or one more. -/
theorem daysBeforeYear_mean (n : Nat) :
    146097 * n ≤ 400 * daysBeforeYear (n + 1) + 699 ∧
      400 * daysBeforeYear (n + 1) ≤ 146097 * n + 396 := by
  simp only [daysBeforeYear, Nat.add_sub_cancel]
  omega

/-- **The guess is at most one year off.** -/
theorem yearOf_between (days : Nat) :
    1 ≤ yearOf days ∧ daysBeforeYear (yearOf days) ≤ days ∧
      days < daysBeforeYear (yearOf days + 1) := by
  unfold yearOf
  have hguess := Nat.div_add_mod (days * 400) 146097
  have hrest := Nat.mod_lt (days * 400) (show 0 < 146097 by decide)
  generalize days * 400 / 146097 = g at *
  generalize days * 400 % 146097 = rest at *
  dsimp only
  split
  case isTrue hearly =>
    -- one year less is enough, as no year starts more than a day after the mean
    obtain ⟨n, rfl⟩ : ∃ n, g = n + 1 := by
      cases g with
      | zero => exact absurd hearly (Nat.not_lt_zero _)
      | succ n => exact ⟨n, rfl⟩
    have hmean := daysBeforeYear_mean n
    simp only [Nat.add_sub_cancel]
    omega
  case isFalse hlate =>
    split
    · -- one year more is enough, as no year starts more than two days before the mean
      have hmean := daysBeforeYear_mean (g + 1 + 1)
      omega
    · omega

/-- **The search finds the month.** It starts with as many months left as the year has. -/
theorem monthAndDay_spec {year : Nat} (fuel month rest : Nat) (hmonth : 1 ≤ month)
    (hfuel : month + fuel = 13) (hrest : daysBeforeMonth year month + rest < yearLength year) :
    (1 ≤ (monthAndDay year fuel month rest).1 ∧ (monthAndDay year fuel month rest).1 ≤ 12) ∧
      (1 ≤ (monthAndDay year fuel month rest).2 ∧ (monthAndDay year fuel month rest).2 ≤
        monthLength year (monthAndDay year fuel month rest).1) ∧
      daysBeforeMonth year (monthAndDay year fuel month rest).1 +
        ((monthAndDay year fuel month rest).2 - 1) = daysBeforeMonth year month + rest := by
  induction fuel generalizing month rest with
  -- The months cannot run out, since the rest is less than a year.
  | zero =>
    obtain rfl : month = 13 := by omega
    rw [daysBeforeMonth_thirteen] at hrest
    omega
  | succ fuel ih =>
    rw [monthAndDay]
    split
    case isTrue hfits =>
      exact ⟨⟨hmonth, by omega⟩, ⟨Nat.le_add_left 1 _, hfits⟩, rfl⟩
    case isFalse hover =>
      have hnext : daysBeforeMonth year (month + 1) + (rest - monthLength year month) =
          daysBeforeMonth year month + rest := by
        rw [daysBeforeMonth_succ year hmonth]
        omega
      have hfound := ih (month + 1) (rest - monthLength year month) (by omega) (by omega)
        (hnext ▸ hrest)
      rwa [hnext] at hfound

theorem ofDayNumber?_eq (n : Int) : ofDayNumber? n = if n + epoch < 0 then none else
    ofNumbers? (yearOf (n + epoch).toNat)
      (monthAndDay (yearOf (n + epoch).toNat) 12 1
        ((n + epoch).toNat - daysBeforeYear (yearOf (n + epoch).toNat))).1
      (monthAndDay (yearOf (n + epoch).toNat) 12 1
        ((n + epoch).toNat - daysBeforeYear (yearOf (n + epoch).toNat))).2 := rfl

/-- **The search finds the day that has the number.** -/
theorem ofDayNumber?_eq_some_iff {n : Int} {d : Date} :
    ofDayNumber? n = some d ↔ d.dayNumber = n := by
  rw [ofDayNumber?_eq]
  split
  case isTrue hneg =>
    rw [dayNumber_eq]
    constructor
    · simp
    · omega
  case isFalse hpos =>
    have hdays : n = ((n + epoch).toNat : Int) - epoch := by omega
    generalize (n + epoch).toNat = days at hdays ⊢
    obtain ⟨hone, hle, hlt⟩ := yearOf_between days
    have hrest : days - daysBeforeYear (yearOf days) < yearLength (yearOf days) := by
      rw [daysBeforeYear_succ hone] at hlt
      omega
    obtain ⟨hmonth, hday, hplace⟩ := monthAndDay_spec 12 1 _ (Nat.le_refl 1) rfl
      (by rwa [daysBeforeMonth_one, Nat.zero_add])
    rw [daysBeforeMonth_one, Nat.zero_add] at hplace
    generalize monthAndDay (yearOf days) 12 1 (days - daysBeforeYear (yearOf days)) = found
      at hmonth hday hplace ⊢
    -- Year, month and day are found so that their date has the position `days`; it remains that a
    -- date with this position has this year, since positions are injective.
    have hposition : ∀ {d' : Date}, ofNumbers? (yearOf days) found.1 found.2 = some d' →
        d'.position = days := by
      intro d' h
      obtain ⟨hy, hm, hd⟩ := ofNumbers?_eq_some_iff.1 h
      rw [position, hy, hm, hd, hplace]
      omega
    rw [dayNumber_eq]
    constructor
    · intro h
      rw [hposition h, hdays]
    · intro h
      have hd : d.position = days := by omega
      have hyear : d.year = yearOf days :=
        eq_of_between daysBeforeYear_step (position_bounds d) (by rw [hd]; exact ⟨hle, hlt⟩)
      have hvalid : isDate (yearOf days) found.1 found.2 = true :=
        isDate_iff.2 ⟨hyear ▸ (isDate_iff.1 d.valid).1, hmonth, hday⟩
      cases hfound : ofNumbers? (yearOf days) found.1 found.2 with
      | none => exact absurd hvalid (ofNumbers?_eq_none_iff.1 hfound)
      | some d' => rw [position_injective ((hposition hfound).trans hd.symm)]

end Date

end WorkspaceAudit
