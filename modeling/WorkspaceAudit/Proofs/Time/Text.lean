import WorkspaceAudit.Proofs.Text.Decimal
import WorkspaceAudit.Time.Text

/-!
# Moments are read back from their texts

- `Moment.digits?_padded`: a number of a fixed width is read as that number.
- `Moment.readDay?_text`, `Moment.readTime?_text`, `Moment.readZone?_text`: the parts of a moment.
- `Moment.ofText_text`: a whole moment.
-/

namespace WorkspaceAudit

open Text.Decimal

namespace Moment

/-- A row of digits is read as a number, after what has been read of it. -/
theorem digits?_append {ds : List Char} (hds : ∀ c ∈ ds, isDigit c = true) (n : Nat)
    (rest : List Char) : digits? ds.length n (ds ++ rest) =
      some (ds.foldl (fun n c => 10 * n + digitValue c) n, rest) := by
  induction ds generalizing n with
  | nil => rfl
  | cons c ds ih =>
    have hc : digit? c = some (digitValue c) := by simp [digit?, hds c List.mem_cons_self]
    simp only [List.length_cons, List.cons_append, digits?, hc, Option.bind_eq_bind,
      Option.bind_some]
    exact ih (fun d hd => hds d (List.mem_cons_of_mem c hd)) _

/-- **A number of a fixed width is read as that number.** -/
theorem digits?_padded {width n : Nat} (hwidth : 0 < width) (h : n < Nat.pow 10 width)
    (rest : List Char) : digits? width 0 ((padded width n).toList ++ rest) = some (n, rest) := by
  have hdigit : ∀ c ∈ (padded width n).toList, isDigit c = true := fun c => isDigit_of_mem_padded
  have hread := digits?_append hdigit 0 rest
  rw [length_padded hwidth h] at hread
  rw [hread, ← value, value_padded]

theorem digits?_two {n : Nat} (h : n < 100) (rest : List Char) :
    digits? 2 0 ((padded 2 n).toList ++ rest) = some (n, rest) :=
  digits?_padded (by decide) h rest

theorem digits?_four {n : Nat} (h : n < 10000) (rest : List Char) :
    digits? 4 0 ((padded 4 n).toList ++ rest) = some (n, rest) :=
  digits?_padded (by decide) h rest

end Moment

/-! ## Days -/

namespace Date

/-- The numbers of a day have the widths at which they are written. -/
theorem bounds (d : Date) : d.year < 10000 ∧ d.month < 100 ∧ d.day < 100 := by
  have hlength : monthLength d.year d.month ≤ 31 := by
    unfold monthLength
    split
    · split <;> omega
    · split <;> omega
  have hvalid := d.valid
  simp only [isDate, isDay, Bool.and_eq_true, decide_eq_true_eq] at hvalid
  omega

theorem toList_text (d : Date) : d.text.toList = (padded 4 d.year).toList ++
    '-' :: ((padded 2 d.month).toList ++ '-' :: (padded 2 d.day).toList) := by
  simp [text]

end Date

namespace Moment

theorem after?_cons (c : Char) (rest : List Char) : after? c (c :: rest) = some rest := by
  simp [after?]

/-- A day is read back, whatever follows it. -/
theorem readDay?_text (d : Date) (rest : List Char) :
    readDay? (d.text.toList ++ rest) = some ((d.year, d.month, d.day), rest) := by
  obtain ⟨hyear, hmonth, hday⟩ := d.bounds
  have hvalid : isDay d.year d.month d.day = true := (Bool.and_eq_true_iff.1 d.valid).2
  simp only [readDay?, Date.toList_text, List.append_assoc, List.cons_append,
    digits?_four hyear, digits?_two hmonth, digits?_two hday, after?_cons, Option.bind_eq_bind,
    Option.bind_some, hvalid, if_true, Option.pure_def]

end Moment

/-! ## Times -/

namespace TimeOfDay

theorem bounds (t : TimeOfDay) : t.hour < 24 ∧ t.minute < 60 ∧ t.second < 60 ∧
    t.micro < 1000000 := by
  have hvalid := t.valid
  simp only [hour, minute, second, micro]
  omega

/-- The numbers of a time of day, together, are that time. -/
theorem ofNumbers?_eq (t : TimeOfDay) : ofNumbers? t.hour t.minute t.second t.micro = some t := by
  have hsum : ((t.hour * 60 + t.minute) * 60 + t.second) * 1000000 + t.micro = t.micros := by
    simp only [hour, minute, second, micro]
    omega
  obtain ⟨hhour, hminute, hsecond, hmicro⟩ := t.bounds
  simp [ofNumbers?, ofMicros?, hhour, hminute, hsecond, hmicro, hsum, t.valid]

theorem toList_clockText (t : TimeOfDay) : t.clockText.toList = (padded 2 t.hour).toList ++
    ':' :: ((padded 2 t.minute).toList ++ ':' :: (padded 2 t.second).toList) := by
  simp [clockText]

end TimeOfDay

namespace Moment

/-- The text does not go on with a digit or a fraction. -/
def EndsTime (rest : List Char) : Prop :=
  ∀ c ∈ rest.head?, isDigit c = false ∧ c ≠ '.' ∧ c ≠ ','

theorem fractionMicros_padded {n : Nat} (h : n < 1000000) :
    fractionMicros (padded 6 n).toList = n := by
  have hlength : (padded 6 n).toList.length = 6 := length_padded (by decide) h
  rw [fractionMicros, List.take_append_of_le_length (Nat.le_of_eq hlength.symm),
    List.take_of_length_le (Nat.le_of_eq hlength), value_padded]

/-- The fraction of a time, if it has any. -/
theorem readFraction?_micro (t : TimeOfDay) {rest : List Char} (hrest : EndsTime rest) :
    readFraction? ((if t.micro = 0 then [] else '.' :: (padded 6 t.micro).toList) ++ rest) =
      some (t.micro, rest) := by
  by_cases hzero : t.micro = 0
  · cases rest with
    | nil => simp [hzero, readFraction?]
    | cons c rest =>
      obtain ⟨-, hpoint, hcomma⟩ := hrest c rfl
      simp [hzero, readFraction?, hpoint, hcomma]
  · have hmicro := t.bounds.2.2.2
    have hdigit : ∀ c ∈ (padded 6 t.micro).toList, isDigit c = true :=
      fun c => isDigit_of_mem_padded
    have hspan := span_isDigit hdigit fun c hc => (hrest c hc).1
    have hne : (padded 6 t.micro).toList ≠ [] := by
      intro hnil
      have hlength : (padded 6 t.micro).toList.length = 6 := length_padded (by decide) hmicro
      simp [hnil] at hlength
    rw [if_neg hzero, List.cons_append, readFraction?, if_pos (by decide), hspan]
    simp only [fractionMicros_padded hmicro]

/-- A time of day is read back. -/
theorem readTime?_text (t : TimeOfDay) {rest : List Char} (hrest : EndsTime rest) :
    readTime? (t.text.toList ++ rest) = some (t, rest) := by
  obtain ⟨hhour, hminute, hsecond, -⟩ := t.bounds
  have htext : t.text.toList = t.clockText.toList ++
      (if t.micro = 0 then [] else '.' :: (padded 6 t.micro).toList) := by
    unfold TimeOfDay.text
    by_cases hzero : t.micro = 0 <;> simp [hzero]
  simp only [readTime?, readSeconds?, htext, TimeOfDay.toList_clockText, List.append_assoc,
    List.cons_append, digits?_two (Nat.lt_trans hhour (by decide : 24 < 100)),
    digits?_two (Nat.lt_trans hminute (by decide : 60 < 100)),
    digits?_two (Nat.lt_trans hsecond (by decide : 60 < 100)), after?_cons, Option.bind_eq_bind,
    Option.bind_some, readFraction?_micro t hrest, Option.pure_def, t.ofNumbers?_eq]

/-! ## Offsets -/

/-- The hours and minutes of an offset, after its sign. -/
theorem readOffset?_padded (o : Offset) (negative : Bool)
    (hsign : o.minutes = if negative then -(o.minutes.natAbs : Int) else o.minutes.natAbs) :
    readOffset? negative ((padded 2 (o.minutes.natAbs / 60)).toList ++
      ':' :: (padded 2 (o.minutes.natAbs % 60)).toList) = some (o, []) := by
  have hvalid := o.valid
  have hminutes := digits?_two (n := o.minutes.natAbs % 60) (by omega) []
  have htotal : o.minutes.natAbs / 60 * 60 + o.minutes.natAbs % 60 = o.minutes.natAbs := by omega
  rw [List.append_nil] at hminutes
  simp only [readOffset?, digits?_two (show o.minutes.natAbs / 60 < 100 by omega),
    Option.bind_eq_bind, Option.bind_some, after?_cons, Option.getD_some, hminutes, htotal, ← hsign]
  rw [if_pos (Nat.mod_lt _ (by decide)), Offset.ofMinutes?, dif_pos hvalid]
  rfl

/-- An offset is read back at the end of a text. -/
theorem readZone?_text (o : Offset) : readZone? o.text.toList = some (some o, []) := by
  by_cases hzero : o.minutes = 0
  · obtain ⟨minutes, hvalid⟩ := o
    obtain rfl : minutes = 0 := hzero
    simp [Offset.text, readZone?, Offset.zero]
  by_cases hnegative : o.minutes < 0
  · have hread := readOffset?_padded o true (by rw [if_pos rfl]; omega)
    have htext : o.text.toList = '-' :: ((padded 2 (o.minutes.natAbs / 60)).toList ++
        ':' :: (padded 2 (o.minutes.natAbs % 60)).toList) := by
      simp [Offset.text, hzero, hnegative]
    rw [htext, readZone?, if_neg (by decide), if_neg (by decide), if_pos (by decide), hread]
    rfl
  · have hread := readOffset?_padded o false (by rw [if_neg (by decide)]; omega)
    have htext : o.text.toList = '+' :: ((padded 2 (o.minutes.natAbs / 60)).toList ++
        ':' :: (padded 2 (o.minutes.natAbs % 60)).toList) := by
      simp [Offset.text, hzero, hnegative]
    rw [htext, readZone?, if_neg (by decide), if_pos (by decide), hread]
    rfl

theorem endsTime_text (o : Offset) : EndsTime o.text.toList := by
  intro c hc
  have hsign : c = 'Z' ∨ c = '-' ∨ c = '+' := by
    unfold Offset.text at hc
    split at hc
    · exact .inl (by simpa using hc.symm)
    · split at hc
      · exact .inr (.inl (by simpa using hc.symm))
      · exact .inr (.inr (by simpa using hc.symm))
  rcases hsign with rfl | rfl | rfl <;> decide

/-! ## Moments -/

/-- What is written of an offset that may be unknown. -/
def zoneText (offset : Option Offset) : List Char :=
  match offset with
  | some offset => offset.text.toList
  | none => []

theorem readZone?_zoneText (offset : Option Offset) :
    readZone? (zoneText offset) = some (offset, []) := by
  cases offset with
  | none => rfl
  | some offset => exact readZone?_text offset

theorem endsTime_zoneText (offset : Option Offset) : EndsTime (zoneText offset) := by
  cases offset with
  | none => exact fun c hc => absurd hc (by simp [zoneText])
  | some offset => exact endsTime_text offset

theorem toList_text (m : Moment) :
    m.text.toList = m.date.text.toList ++ 'T' :: (m.time.text.toList ++ zoneText m.offset) := by
  unfold text zoneText
  cases m.offset <;> simp

/-- **A moment is read back from its text.** -/
theorem ofText_text (m : Moment) : ofText m.text.toList = .ok m := by
  have hclock : readClock? ('T' :: (m.time.text.toList ++ zoneText m.offset)) =
      some (m.time, m.offset) := by
    rw [readClock?, if_pos (by decide)]
    simp [readTime?_text m.time (endsTime_zoneText m.offset), readZone?_zoneText]
  have hcalendar : readCalendar? m.text.toList =
      some ((m.date.year, m.date.month, m.date.day), m.time, m.offset) := by
    simp [readCalendar?, toList_text, readDay?_text, hclock]
  have hdate : Date.ofNumbers? m.date.year m.date.month m.date.day = some m.date := by
    rw [Date.ofNumbers?, dif_pos m.date.valid]
  simp only [ofText, hcalendar, hdate]

end Moment

end WorkspaceAudit
