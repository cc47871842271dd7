import WorkspaceAudit.Proofs.Display.Grouping
import WorkspaceAudit.Proofs.Time.Calendar

/-!
# The age of a scan

The age of a scan is told from the difference of two numbers of microseconds. Here it is compared
with the time that passes on the calendar and the clock.

- `Iso.Passes`: so many microseconds pass between two moments, day by day and by the clock;
  `Iso.passes_iff`: they are the difference of the two instants.
- `Iso.withOffset?`: a moment on a clock with another offset; `Iso.withOffset?_eq_some_iff`: it is
  the moment with that offset and no time between.
- `Display.ageText_cases`: the text of an age; `Display.ageDays`: the days that it tells.
- `Display.scanAgeOn_passes`: the age of a scan tells the whole days that have passed.
-/

namespace WorkspaceAudit

theorem TimeOfDay.ofMicros?_eq_some_iff {n : Nat} {t : TimeOfDay} :
    ofMicros? n = some t ↔ t.micros = n := by
  unfold ofMicros?
  split
  · rw [Option.some.injEq]
    constructor
    · rintro rfl
      rfl
    · rintro rfl
      rfl
  · rename_i hover
    refine ⟨by simp, ?_⟩
    rintro rfl
    exact absurd t.valid hover

namespace Iso

/-! ## Time that passes -/

/-- The time of day in universal time, which may be before midnight or after the next one. -/
def clock (m : Iso) : Int := m.time.micros - m.offset.getD 0

/-- So many microseconds pass from a moment to another. The days between them are counted on the
calendar, from the earlier to the later day. -/
def Passes (m m' : Iso) (micros : Int) : Prop :=
  ∃ days : Nat,
    m.date.daysLater? days = some m'.date ∧
      micros = days * (86400 * 1000000) + (m'.clock - m.clock) ∨
    m'.date.daysLater? days = some m.date ∧
      micros = -(days * (86400 * 1000000)) + (m'.clock - m.clock)

theorem instant_eq (m : Iso) :
    m.instant = m.date.dayNumber * (86400 * 1000000) + m.clock := by
  simp only [instant, clock, Moment.dayMicros]
  omega

/-- **The time that passes is the difference of the instants.** -/
theorem passes_iff {m m' : Iso} {micros : Int} :
    m.Passes m' micros ↔ micros = m'.instant - m.instant := by
  simp only [Passes, Date.daysLater?_eq_some_iff, instant_eq]
  constructor
  · rintro ⟨days, ⟨hdays, rfl⟩ | ⟨hdays, rfl⟩⟩
    · omega
    · omega
  · rintro rfl
    refine ⟨(m'.date.dayNumber - m.date.dayNumber).natAbs, ?_⟩
    omega

theorem Passes.instant_eq {m m' : Iso} (h : m.Passes m' 0) : m'.instant = m.instant := by
  have := passes_iff.1 h
  omega

/-! ## Other clocks -/

/-- The moment on a clock with an offset, if the calendar has it. -/
def withOffset? (m : Iso) (offset : Int) : Option Iso := do
  let date ← Date.ofDayNumber? ((m.instant + offset) / Moment.dayMicros)
  let time ← TimeOfDay.ofMicros? ((m.instant + offset) % Moment.dayMicros).toNat
  return { date := date, time := time, offset := some offset }

/-- **The moment on another clock is the one with the offset of that clock and no time between.** -/
theorem withOffset?_eq_some_iff {m m' : Iso} {offset : Int} :
    m.withOffset? offset = some m' ↔ m'.offset = some offset ∧ m.Passes m' 0 := by
  have hparts : m.withOffset? offset = some m' ↔ m'.offset = some offset ∧
      m'.date.dayNumber = (m.instant + offset) / Moment.dayMicros ∧
      m'.time.micros = ((m.instant + offset) % Moment.dayMicros).toNat := by
    rw [← Date.ofDayNumber?_eq_some_iff, ← TimeOfDay.ofMicros?_eq_some_iff, withOffset?]
    cases m'
    simp only [Option.bind_eq_bind, Option.bind_eq_some_iff, Option.pure_def, Option.some.injEq,
      Iso.mk.injEq]
    constructor
    · rintro ⟨date, hdate, time, htime, rfl, rfl, rfl⟩
      exact ⟨rfl, hdate, htime⟩
    · rintro ⟨rfl, hdate, htime⟩
      exact ⟨_, hdate, _, htime, rfl, rfl, rfl⟩
  rw [hparts, passes_iff, instant_eq m', clock]
  refine and_congr_right fun hoffset => ?_
  have hday := m'.time.valid
  rw [hoffset, Option.getD_some]
  simp only [Moment.dayMicros]
  omega

end Iso

/-- A moment with its offset in microseconds. -/
def Moment.iso (m : Moment) : Iso :=
  { date := m.date, time := m.time, offset := m.offset.map (·.minutes * 60000000) }

theorem Moment.instant_iso (m : Moment) : m.iso.instant = m.instant := by
  unfold Iso.instant Moment.instant
  cases h : m.offset <;> simp [iso, h]

namespace Display

open Text.Decimal

/-! ## Texts of ages -/

/-- **The text of an age tells the whole days**, or that there are none. -/
theorem ageText_cases (earlier later : Int) :
    (later - earlier < 86400 * 1000000 ∧ ageText earlier later = "today") ∨
      ∃ days : Nat, 1 ≤ days ∧ days * (86400 * 1000000) ≤ later - earlier ∧
        later - earlier < (days + 1) * (86400 * 1000000) ∧
        ageText earlier later = ofNat days ++ "d ago" := by
  have htext : ageText earlier later = if (later - earlier) / 86400000000 ≤ 0 then "today" else
      ofInt ((later - earlier) / 86400000000) ++ "d ago" := rfl
  by_cases hnone : (later - earlier) / 86400000000 ≤ 0
  · exact .inl ⟨by omega, by rw [htext, if_pos hnone]⟩
  · obtain ⟨days, hfloor⟩ : ∃ days : Nat, (later - earlier) / 86400000000 = days :=
      ⟨((later - earlier) / 86400000000).toNat, by omega⟩
    refine .inr ⟨days, by omega, by omega, by omega, ?_⟩
    rw [htext, if_neg hnone, hfloor]
    rfl

/-- The days that an age tells: none if there is no number in it. -/
def ageDays (age : String) : Nat := value (digitsIn age.toList)

theorem ageDays_today : ageDays "today" = 0 := by
  simp [ageDays, digitsIn, isDigit, value]

theorem ageDays_ago (days : Nat) : ageDays (ofNat days ++ "d ago") = days := by
  have hago : digitsIn "d ago".toList = [] := by simp [digitsIn, isDigit]
  rw [ageDays, String.toList_append, digitsIn_append, hago, List.append_nil, ofNat,
    String.toList_ofList, digitsIn_digits, value_digits]

theorem ageDays_mono (earlier : Int) {later latest : Int} (h : later ≤ latest) :
    ageDays (ageText earlier later) ≤ ageDays (ageText earlier latest) := by
  rcases ageText_cases earlier later with ⟨-, hage⟩ | ⟨days, hdays, hle, -, hage⟩
  · rw [hage, ageDays_today]
    exact Nat.zero_le _
  rcases ageText_cases earlier latest with ⟨hlt, -⟩ | ⟨days', -, -, hlt, hage'⟩
  · omega
  · rw [hage, hage', ageDays_ago, ageDays_ago]
    omega

theorem scanAgeOn_of_offset {scannedAt now : Iso} (h : now.offset ≠ none) :
    scanAgeOn scannedAt now = .ok (ageText scannedAt.instant now.instant) := by
  rw [scanAgeOn, if_neg (by simpa using h)]

/-- **The age of a scan is the number of whole days that have passed**, on any clock with an offset.
It is the same on a clock with another offset, for the scan and for now, and it does not go down as
time passes. -/
theorem scanAgeOn_passes (scannedAt now : Iso) (hnow : now.offset ≠ none) :
    (∃ micros, (∀ other, scannedAt.Passes now other ↔ other = micros) ∧
      ((micros < 86400 * 1000000 ∧ scanAgeOn scannedAt now = .ok "today") ∨
        ∃ days : Nat, 1 ≤ days ∧ days * (86400 * 1000000) ≤ micros ∧
          micros < (days + 1) * (86400 * 1000000) ∧
          scanAgeOn scannedAt now = .ok (ofNat days ++ "d ago"))) ∧
    (∀ offset scannedAt', scannedAt.withOffset? offset = some scannedAt' →
      scannedAt'.offset = some offset ∧ scannedAt.Passes scannedAt' 0 ∧
        scanAgeOn scannedAt' now = scanAgeOn scannedAt now) ∧
    (∀ offset now', now.withOffset? offset = some now' →
      now'.offset = some offset ∧ now.Passes now' 0 ∧
        scanAgeOn scannedAt now' = scanAgeOn scannedAt now) ∧
    (∀ later micros, later.offset ≠ none → now.Passes later micros → 0 ≤ micros →
      ∃ age age', scanAgeOn scannedAt now = .ok age ∧ scanAgeOn scannedAt later = .ok age' ∧
        ageDays age ≤ ageDays age') ∧
    (∀ m n : Moment, m.iso = scannedAt → n.iso = now →
      scanAgeOn scannedAt now = .ok (scanAge m n)) := by
  refine ⟨⟨now.instant - scannedAt.instant, fun other => Iso.passes_iff, ?_⟩, ?_, ?_, ?_, ?_⟩
  · rw [scanAgeOn_of_offset hnow]
    simpa only [Except.ok.injEq] using ageText_cases scannedAt.instant now.instant
  · intro offset scannedAt' h
    obtain ⟨hoffset, hpasses⟩ := Iso.withOffset?_eq_some_iff.1 h
    refine ⟨hoffset, hpasses, ?_⟩
    rw [scanAgeOn_of_offset hnow, scanAgeOn_of_offset hnow, hpasses.instant_eq]
  · intro offset now' h
    obtain ⟨hoffset, hpasses⟩ := Iso.withOffset?_eq_some_iff.1 h
    refine ⟨hoffset, hpasses, ?_⟩
    rw [scanAgeOn_of_offset hnow, scanAgeOn_of_offset (by simp [hoffset]), hpasses.instant_eq]
  · intro later micros hlater hpasses hforward
    rw [Iso.passes_iff] at hpasses
    exact ⟨_, _, scanAgeOn_of_offset hnow, scanAgeOn_of_offset hlater,
      ageDays_mono _ (by omega)⟩
  · rintro m n rfl rfl
    rw [scanAgeOn_of_offset hnow, Moment.instant_iso, Moment.instant_iso]
    rfl

/-- A moment on the evening of the day before a leap day. -/
def leapEve : Iso :=
  { date := ⟨2024, 2, 28, by decide⟩, time := ⟨72000000000, by decide⟩, offset := none }

/-- A moment on the morning of the day after that leap day, east of universal time. -/
def leapMorning : Iso :=
  { date := ⟨2024, 3, 1, by decide⟩, time := ⟨34200000000, by decide⟩, offset := some 19800000000 }

theorem scanAgeOn_leapMorning : leapMorning.offset ≠ none ∧
    scanAgeOn leapEve leapMorning = .ok "1d ago" ∧
    ∀ offset now, leapMorning.withOffset? offset = some now →
      scanAgeOn leapEve now = .ok "1d ago" := by
  have hoffset : leapMorning.offset ≠ none := by simp [leapMorning]
  have hage : scanAgeOn leapEve leapMorning = .ok "1d ago" := by decide
  have hpasses := scanAgeOn_passes leapEve leapMorning hoffset
  exact ⟨hoffset, hage, fun offset now h => (hpasses.2.2.1 offset now h).2.2.trans hage⟩

end Display

end WorkspaceAudit
