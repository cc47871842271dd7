import WorkspaceAudit.Proofs.Json.Checking
import WorkspaceAudit.Proofs.Json.RoundTrip
import WorkspaceAudit.Proofs.Time.Text
import WorkspaceAudit.Report.Codec

/-!
# Reports survive the format in which they are stored

- `Report.Valid`: the report can be stored; `Report.Writable`: no whole number in it is too long.
- `Finding.check_toJson`, `Summary.check_toJson`, `Report.check_toJson`: checking undoes writing.
- `Report.valid_of_ofText`: what is read can be stored and has no number that is too long.
- `Report.ofText_render_eq_ok_iff`: exactly such reports are read back from their texts.
-/

namespace WorkspaceAudit

open Text.Decimal

/-! ## Names -/

theorem Scanner.ofName?_name (s : Scanner) : ofName? s.name = some s := by
  cases s <;> decide

theorem Severity.ofName?_name (s : Severity) : ofName? s.name = some s := by
  cases s <;> decide

theorem Grade.ofName?_name (g : Grade) : ofName? g.name = some g := by
  cases g <;> decide

/-- A field that holds null for nothing is read back. -/
theorem Check.optional_ofOption {α : Type} {check : Json → Checked α} {w : α → Json}
    {m : List (String × Json)} {name : String} {o : Option α}
    (hm : m.lookup name = some (.ofOption w o))
    (hw : ∀ a ∈ o, w a ≠ .null ∧ check (w a) = .ok a) : optional check m name = .ok o := by
  refine withDefault_eq_ok_iff.2 (.inl ⟨_, hm, nullable_eq_ok_iff.2 ?_⟩)
  cases o with
  | none => exact .inl ⟨rfl, rfl⟩
  | some a =>
    obtain ⟨hnull, hcheck⟩ := hw a rfl
    exact .inr ⟨hnull, a, hcheck, rfl⟩

theorem Check.named_string {α : Type} {ofName? : String → Option α} {cause : Cause} {s : String}
    {a : α} (h : ofName? s = some a) : named ofName? cause (.string s) = .ok a := by
  simp [named, h]

/-! ## Findings -/

namespace Finding

/-- The finding can be stored: no half of a pair stands alone in it, and its lines are counted
from 1. -/
def Valid (f : Finding) : Prop := f.lone = none ∧ ∀ n ∈ f.location.line?, 1 ≤ n

/-- What a finding is made of when it is read. -/
theorem check_object_eq_ok_iff {m : List (String × Json)} {f : Finding} :
    check (.object m) = .ok f ↔
      Check.required (Check.named Scanner.ofName? .notScanner) m "module" = .ok f.scanner ∧
      Check.required (Check.named Severity.ofName? .notSeverity) m "severity" = .ok f.severity ∧
      Check.required Check.text m "title" = .ok f.title ∧
      Check.required Check.text m "description" = .ok f.description ∧
      (∃ file line, Check.optional Check.text m "file" = .ok file ∧
        Check.optional (Check.integerFrom 1) m "line" = .ok line ∧
        locate file line = .ok f.location) ∧
      Check.optional Check.text m "remediation" = .ok f.remediation ∧ f.lone = none := by
  obtain ⟨scanner, severity, title, description, location, remediation, lone⟩ := f
  simp only [check, Check.object, Checked.bind_eq_ok_iff, Checked.map_eq_ok_iff,
    Checked.and_eq_ok_iff, Prod.exists, mk.injEq]
  constructor
  · rintro ⟨_, _, _, _, file, line, _, ⟨h₁, h₂, h₃, h₄, h₅, h₆, h₇⟩, _, hlocation, rfl, rfl, rfl,
      rfl, rfl, rfl, rfl⟩
    exact ⟨h₁, h₂, h₃, h₄, ⟨file, line, h₅, h₆, hlocation⟩, h₇, rfl⟩
  · rintro ⟨h₁, h₂, h₃, h₄, ⟨file, line, h₅, h₆, hlocation⟩, h₇, rfl⟩
    exact ⟨_, _, _, _, file, line, _, ⟨h₁, h₂, h₃, h₄, h₅, h₆, h₇⟩, _, hlocation, rfl, rfl, rfl,
      rfl, rfl, rfl, rfl⟩

/-- **A finding is read back from what is written of it.** -/
theorem check_toJson {f : Finding} (h : f.Valid) : check f.toJson = .ok f := by
  rw [toJson, check_object_eq_ok_iff]
  refine ⟨Check.required_eq_ok_iff.2 ⟨_, rfl, Check.named_string f.scanner.ofName?_name⟩,
    Check.required_eq_ok_iff.2 ⟨_, rfl, Check.named_string f.severity.ofName?_name⟩,
    Check.required_eq_ok_iff.2 ⟨_, rfl, rfl⟩, Check.required_eq_ok_iff.2 ⟨_, rfl, rfl⟩,
    ⟨f.location.path?, f.location.line?.map Int.ofNat, ?_, ?_, ?_⟩, ?_, h.1⟩
  · exact Check.optional_ofOption rfl fun path _ => ⟨by simp, rfl⟩
  · have hlookup : Json.ofOption (fun n : Int => Json.int n) (f.location.line?.map Int.ofNat) =
        .ofOption (fun n => .int n) f.location.line? := by
      cases f.location.line? <;> rfl
    refine Check.optional_ofOption (w := fun n : Int => .int n) (by rw [hlookup]; rfl) ?_
    intro n hn
    obtain ⟨line, hline, rfl⟩ := Option.map_eq_some_iff.1 hn
    exact ⟨by simp, Check.integerFrom_eq_ok_iff.2 ⟨rfl, Int.ofNat_le.2 (h.2 line hline)⟩⟩
  · cases f.location <;> rfl
  · exact Check.optional_ofOption rfl fun advice _ => ⟨by simp, rfl⟩

theorem exists_of_check {v : Json} {f : Finding} (h : check v = .ok f) :
    ∃ m, v = .object m := by
  cases v with
  | object m => exact ⟨m, rfl⟩
  | _ => cases h

theorem line?_of_locate {file : Option String} {line : Option Int} {l : Location}
    (h : locate file line = .ok l) : l.line? = line.map Int.toNat := by
  cases file <;> cases line <;> cases h <;> rfl

/-- The line of a finding that is read is the number of a field. -/
theorem exists_line_of_check {m : List (String × Json)} {f : Finding} {n : Nat}
    (h : check (.object m) = .ok f) (hn : n ∈ f.location.line?) :
    ∃ v, m.lookup "line" = some v ∧ Check.integer v = .ok n ∧ 1 ≤ n := by
  obtain ⟨-, -, -, -, ⟨file, line, -, hline, hlocate⟩, -⟩ := check_object_eq_ok_iff.1 h
  rw [line?_of_locate hlocate] at hn
  obtain ⟨i, rfl, rfl⟩ := Option.map_eq_some_iff.1 hn
  rcases Check.withDefault_eq_ok_iff.1 hline with ⟨v, hv, hcheck⟩ | ⟨-, hnone⟩
  · rcases Check.nullable_eq_ok_iff.1 hcheck with ⟨-, hnone⟩ | ⟨-, b, hb, heq⟩
    · cases hnone
    · obtain rfl := Option.some.inj heq
      obtain ⟨hinteger, hleast⟩ := Check.integerFrom_eq_ok_iff.1 hb
      refine ⟨v, hv, ?_, by omega⟩
      rw [hinteger, Int.toNat_of_nonneg (by omega)]
  · cases hnone

theorem valid_of_check {v : Json} {f : Finding} (h : check v = .ok f) : f.Valid := by
  obtain ⟨m, rfl⟩ := exists_of_check h
  refine ⟨(check_object_eq_ok_iff.1 h).2.2.2.2.2.2, fun n hn => ?_⟩
  obtain ⟨-, -, -, hleast⟩ := exists_line_of_check h hn
  exact hleast

theorem isWritable_of_check {v : Json} {f : Finding} {n : Nat} (hv : v.Moderate)
    (h : check v = .ok f) (hn : n ∈ f.location.line?) : isWritable n = true := by
  obtain ⟨m, rfl⟩ := exists_of_check h
  obtain ⟨w, hw, hinteger, -⟩ := exists_line_of_check h hn
  exact Check.isWritable_of_integer (Check.moderate_of_lookup hv hw) hinteger

/-- What is written of a finding is a faithful value. -/
theorem faithful_toJson {f : Finding} (h : ∀ n ∈ f.location.line?, isWritable n = true) (k : Nat) :
    f.toJson.Faithful (k + 1) := by
  have htext (o : Option String) : (Json.ofOption .string o).Faithful k := by
    cases o <;> constructor
  have hline : (Json.ofOption (fun n : Int => Json.int n) f.location.line?).Faithful k := by
    cases hcase : f.location.line? with
    | none => exact .null
    | some n => exact .int (h n hcase)
  refine .object (by simp) ?_
  simp only [List.forall_mem_cons, List.not_mem_nil, false_implies, implies_true, and_true]
  exact ⟨.string, .string, .string, .string, htext _, hline, htext _⟩

end Finding

/-! ## Summaries -/

namespace Summary

theorem check_object_eq_ok_iff {m : List (String × Json)} {s : Summary} :
    check (.object m) = .ok s ↔
      Check.withDefault 0 Check.integer m "critical" = .ok s.critical ∧
      Check.withDefault 0 Check.integer m "high" = .ok s.high ∧
      Check.withDefault 0 Check.integer m "medium" = .ok s.medium ∧
      Check.withDefault 0 Check.integer m "low" = .ok s.low ∧
      Check.withDefault 0 Check.integer m "info" = .ok s.info := by
  obtain ⟨critical, high, medium, low, info⟩ := s
  simp only [check, Check.object, Checked.map_eq_ok_iff, Checked.and_eq_ok_iff, Prod.exists,
    mk.injEq]
  constructor
  · rintro ⟨_, _, _, _, _, h, rfl, rfl, rfl, rfl, rfl⟩
    exact h
  · exact fun h => ⟨_, _, _, _, _, h, rfl, rfl, rfl, rfl, rfl⟩

/-- **A summary is read back from what is written of it.** -/
theorem check_toJson (s : Summary) : check s.toJson = .ok s := by
  have hfield {m : List (String × Json)} {name : String} {n : Int}
      (h : m.lookup name = some (.int n)) : Check.withDefault 0 Check.integer m name = .ok n :=
    Check.withDefault_eq_ok_iff.2 (.inl ⟨_, h, rfl⟩)
  rw [toJson, check_object_eq_ok_iff]
  exact ⟨hfield rfl, hfield rfl, hfield rfl, hfield rfl, hfield rfl⟩

/-- No count is too long. -/
def Writable (s : Summary) : Prop := ∀ severity, isWritable (s.count severity) = true

theorem writable_of_check {v : Json} {s : Summary} (hv : v.Moderate) (h : check v = .ok s) :
    s.Writable := by
  cases v with
  | object m =>
    have hfield {name : String} {n : Int}
        (hn : Check.withDefault 0 Check.integer m name = .ok n) : isWritable n = true := by
      rcases Check.withDefault_eq_ok_iff.1 hn with ⟨w, hw, hinteger⟩ | ⟨-, rfl⟩
      · exact Check.isWritable_of_integer (Check.moderate_of_lookup hv hw) hinteger
      · exact Check.isWritable_of_small (by decide)
    obtain ⟨h₁, h₂, h₃, h₄, h₅⟩ := check_object_eq_ok_iff.1 h
    intro severity
    cases severity
    · exact hfield h₁
    · exact hfield h₂
    · exact hfield h₃
    · exact hfield h₄
    · exact hfield h₅
  | _ => cases h

theorem faithful_toJson {s : Summary} (h : s.Writable) (k : Nat) :
    s.toJson.Faithful (k + 1) := by
  refine .object (by simp) ?_
  simp only [List.forall_mem_cons, List.not_mem_nil, false_implies, implies_true, and_true]
  exact ⟨.int (h .critical), .int (h .high), .int (h .medium), .int (h .low), .int (h .info)⟩

end Summary

/-! ## Reports -/

namespace Report

/-- The report can be stored: it has at most a hundred points, and its findings can be stored. -/
structure Valid (r : Report) : Prop where
  points : r.points ≤ 100
  findings : ∀ f ∈ r.findings, f.Valid

/-- No whole number of the report has more digits than are read: neither the line of a finding nor
a count nor the duration. -/
structure Writable (r : Report) : Prop where
  lines : ∀ f ∈ r.findings, ∀ n ∈ f.location.line?, isWritable n = true
  summary : r.summary.Writable
  duration : isWritable r.durationMs = true

/-- What a report is made of when it is read. -/
theorem check_object_eq_ok_iff {m : List (String × Json)} {r : Report} :
    check (.object m) = .ok r ↔
      Check.required Check.text m "project" = .ok r.project ∧
      Check.required Check.text m "project_path" = .ok r.projectPath ∧
      Check.required Check.moment m "scanned_at" = .ok r.scannedAt ∧
      Check.required (Check.named Grade.ofName? .notGrade) m "score" = .ok r.grade ∧
      (∃ points : Int, Check.required (Check.integerBetween 0 100) m "score_numeric" = .ok points ∧
        points.toNat = r.points) ∧
      Check.withDefault [] (Check.list Finding.check) m "findings" = .ok r.findings ∧
      Check.withDefault {} Summary.check m "summary" = .ok r.summary ∧
      ∃ duration : Int, Check.withDefault 0 (Check.integerFrom 0) m "duration_ms" = .ok duration ∧
        duration.toNat = r.durationMs := by
  obtain ⟨project, projectPath, scannedAt, grade, points, findings, summary, durationMs⟩ := r
  simp only [check, Check.object, Checked.map_eq_ok_iff, Checked.and_eq_ok_iff, Prod.exists,
    mk.injEq]
  constructor
  · rintro ⟨_, _, _, _, points, _, _, duration, ⟨h₁, h₂, h₃, h₄, h₅, h₆, h₇, h₈⟩, rfl, rfl, rfl,
      rfl, hpoints, rfl, rfl, hduration⟩
    exact ⟨h₁, h₂, h₃, h₄, ⟨points, h₅, hpoints⟩, h₆, h₇, duration, h₈, hduration⟩
  · rintro ⟨h₁, h₂, h₃, h₄, ⟨points, h₅, hpoints⟩, h₆, h₇, duration, h₈, hduration⟩
    exact ⟨_, _, _, _, points, _, _, duration, ⟨h₁, h₂, h₃, h₄, h₅, h₆, h₇, h₈⟩, rfl, rfl, rfl,
      rfl, hpoints, rfl, rfl, hduration⟩

/-- **A report is read back from what is written of it.** -/
theorem check_toJson {r : Report} (h : r.Valid) : check r.toJson = .ok r := by
  have hmoment : Check.moment (.string r.scannedAt.text) = .ok r.scannedAt := by
    simp [Check.moment, Moment.ofText_text]
  have hfindings : Check.list Finding.check (.array (r.findings.map Finding.toJson)) =
      .ok r.findings := by
    rw [Check.list, Check.itemsFrom_eq_ok_iff, List.map_map]
    exact List.map_congr_left fun f hf => Finding.check_toJson (h.findings f hf)
  have hpoints : Check.integerBetween 0 100 (.int r.points) = .ok (r.points : Int) :=
    Check.integerBetween_eq_ok_iff.2 ⟨rfl, Int.natCast_nonneg _, Int.ofNat_le.2 h.points⟩
  have hduration : Check.integerFrom 0 (.int r.durationMs) = .ok (r.durationMs : Int) :=
    Check.integerFrom_eq_ok_iff.2 ⟨rfl, Int.natCast_nonneg _⟩
  rw [toJson, check_object_eq_ok_iff]
  exact ⟨Check.required_eq_ok_iff.2 ⟨_, rfl, rfl⟩, Check.required_eq_ok_iff.2 ⟨_, rfl, rfl⟩,
    Check.required_eq_ok_iff.2 ⟨_, rfl, hmoment⟩,
    Check.required_eq_ok_iff.2 ⟨_, rfl, Check.named_string r.grade.ofName?_name⟩,
    ⟨r.points, Check.required_eq_ok_iff.2 ⟨_, rfl, hpoints⟩, Int.toNat_natCast _⟩,
    Check.withDefault_eq_ok_iff.2 (.inl ⟨_, rfl, hfindings⟩),
    Check.withDefault_eq_ok_iff.2 (.inl ⟨_, rfl, r.summary.check_toJson⟩),
    r.durationMs, Check.withDefault_eq_ok_iff.2 (.inl ⟨_, rfl, hduration⟩), Int.toNat_natCast _⟩

/-- What is written of a report is a faithful value, with findings in a list in it. -/
theorem faithful_toJson_of_depth {r : Report} (hvalid : r.Valid) (hwritable : r.Writable)
    (k : Nat) : r.toJson.Faithful (k + 3) := by
  have hpoints : isWritable r.points = true :=
    Check.isWritable_of_small (Nat.lt_of_le_of_lt hvalid.points (by decide))
  have hfindings : (Json.array (r.findings.map Finding.toJson)).Faithful (k + 2) := by
    refine .array fun v hv => ?_
    obtain ⟨f, hf, rfl⟩ := List.mem_map.1 hv
    exact Finding.faithful_toJson (hwritable.lines f hf) k
  have hsummary := Summary.faithful_toJson hwritable.summary (k + 1)
  refine .object (n := k + 2) (by simp) ?_
  simp only [List.forall_mem_cons, List.not_mem_nil, false_implies, implies_true, and_true]
  exact ⟨.string, .string, .string, .string, .int hpoints, hfindings, hsummary,
    .int hwritable.duration⟩

theorem faithful_toJson {r : Report} (hvalid : r.Valid) (hwritable : r.Writable) :
    r.toJson.Faithful Json.Dialect.own.depth :=
  faithful_toJson_of_depth hvalid hwritable 197

/-- So is what is written of a list of reports. -/
theorem faithful_array {rs : List Report} (h : ∀ r ∈ rs, r.Valid ∧ r.Writable) :
    (Json.array (rs.map Report.toJson)).Faithful Json.Dialect.own.depth := by
  refine .array (n := 199) fun v hv => ?_
  obtain ⟨r, hr, rfl⟩ := List.mem_map.1 hv
  exact faithful_toJson_of_depth (h r hr).1 (h r hr).2 196

theorem exists_of_check {v : Json} {r : Report} (h : check v = .ok r) : ∃ m, v = .object m := by
  cases v with
  | object m => exact ⟨m, rfl⟩
  | _ => cases h

/-- Each finding of a report that is read comes from a value of its own. -/
theorem exists_finding_of_check {m : List (String × Json)} {r : Report} {f : Finding}
    (h : check (.object m) = .ok r) (hf : f ∈ r.findings) :
    ∃ items, m.lookup "findings" = some (.array items) ∧ ∃ w ∈ items, Finding.check w = .ok f := by
  obtain ⟨-, -, -, -, -, hfindings, -⟩ := check_object_eq_ok_iff.1 h
  rcases Check.withDefault_eq_ok_iff.1 hfindings with ⟨v, hv, hlist⟩ | ⟨-, hnil⟩
  · obtain ⟨items, rfl, w, hw, hcheck⟩ := Check.exists_of_mem_list hlist hf
    exact ⟨items, hv, w, hw, hcheck⟩
  · rw [← hnil] at hf
    exact absurd hf List.not_mem_nil

/-- A report that is read can be stored. -/
theorem valid_of_check {v : Json} {r : Report} (h : check v = .ok r) : r.Valid := by
  obtain ⟨m, rfl⟩ := exists_of_check h
  refine ⟨?_, fun f hf => ?_⟩
  · obtain ⟨-, -, -, -, ⟨points, hpoints, heq⟩, -⟩ := check_object_eq_ok_iff.1 h
    obtain ⟨w, -, hw⟩ := Check.required_eq_ok_iff.1 hpoints
    have hgreatest := (Check.integerBetween_eq_ok_iff.1 hw).2.2
    omega
  · obtain ⟨items, -, w, -, hcheck⟩ := exists_finding_of_check h hf
    exact Finding.valid_of_check hcheck

/-- No number of a report is too long if none is in the value from which it is read. -/
theorem writable_of_check {v : Json} {r : Report} (hv : v.Moderate) (h : check v = .ok r) :
    r.Writable := by
  obtain ⟨m, rfl⟩ := exists_of_check h
  obtain ⟨-, -, -, -, -, -, hsummary, duration, hduration, heq⟩ := check_object_eq_ok_iff.1 h
  refine ⟨fun f hf n hn => ?_, ?_, ?_⟩
  · obtain ⟨items, hitems, w, hw, hcheck⟩ := exists_finding_of_check h hf
    have hmoderate := Check.moderate_of_lookup hv hitems
    cases hmoderate with
    | array hitems => exact Finding.isWritable_of_check (hitems w hw) hcheck hn
  · rcases Check.withDefault_eq_ok_iff.1 hsummary with ⟨w, hw, hcheck⟩ | ⟨-, hdefault⟩
    · exact Summary.writable_of_check (Check.moderate_of_lookup hv hw) hcheck
    · rw [← hdefault]
      exact fun severity => Check.isWritable_of_small (by cases severity <;> decide)
  · rcases Check.withDefault_eq_ok_iff.1 hduration with ⟨w, hw, hcheck⟩ | ⟨-, rfl⟩
    · obtain ⟨hinteger, hleast⟩ := Check.integerFrom_eq_ok_iff.1 hcheck
      rw [← heq, Int.toNat_of_nonneg hleast]
      exact Check.isWritable_of_integer (Check.moderate_of_lookup hv hw) hinteger
    · rw [← heq]
      exact Check.isWritable_of_small (by decide)

theorem toList_render (r : Report) : r.render.toList = Json.write .plain 0 r.toJson := by
  simp [render, Json.render]

/-- A report that can be stored, and has no number that is too long, is read back. -/
theorem ofText_render {r : Report} (hvalid : r.Valid) (hwritable : r.Writable) :
    ofText r.render.toList = .ok r := by
  rw [ofText, Checked.ofText, toList_render, Json.parse_write (faithful_toJson hvalid hwritable)]
  exact check_toJson hvalid

/-- A report that is read can be stored, and has no number that is too long. -/
theorem valid_of_ofText {s : List Char} {r : Report} (h : ofText s = .ok r) :
    r.Valid ∧ r.Writable := by
  unfold ofText Checked.ofText at h
  split at h
  · rename_i v hparse
    exact ⟨valid_of_check h, writable_of_check (Json.moderate_of_parse hparse) h⟩
  · cases h

/-- **Reports survive the format.** Exactly the reports that can be stored and have no number that
is too long are read back from what is written of them, and every report that is read is one of
these: what is written of it, whatever it was read from, is read as the same report. -/
theorem ofText_render_eq_ok_iff :
    (∀ r : Report, ofText r.render.toList = .ok r ↔ r.Valid ∧ r.Writable) ∧
    ∀ (s : List Char) (r : Report), ofText s = .ok r → ofText r.render.toList = .ok r := by
  refine ⟨fun r => ⟨valid_of_ofText, fun h => ofText_render h.1 h.2⟩, fun s r h => ?_⟩
  obtain ⟨hvalid, hwritable⟩ := valid_of_ofText h
  exact ofText_render hvalid hwritable

/-- A text with points between blanks, a count that is a truth value, a moment in seconds, a grade
that is given twice, a character by its code and an unknown field. -/
theorem ofText_render_lenient :
    let text := ("\x7b\"project\":\"\\u00e9\",\"project_path\":\"\",\"scanned_at\":60," ++
      "\"score\":\"B\",\"score\":\"A\",\"score_numeric\":\" 5 \",\"duration_ms\":3.0," ++
      "\"summary\":\x7b\"low\":true\x7d,\"x\":[]\x7d").toList
    ∃ r, ofText text = .ok r ∧ r.project = "é" ∧ r.grade = .a ∧ r.points = 5 ∧ r.summary.low = 1 ∧
      ofText r.render.toList = .ok r := by
  intro text
  have hread : (ofText text).toOption.map (fun r => (r.project, r.grade, r.points, r.summary.low)) =
      some ("é", .a, 5, 1) := by
    decide +kernel
  cases htext : ofText text with
  | error problems => simp [htext, Except.toOption] at hread
  | ok r =>
    simp only [htext, Except.toOption, Option.map_some, Option.some.injEq, Prod.mk.injEq] at hread
    obtain ⟨hproject, hgrade, hpoints, hlow⟩ := hread
    exact ⟨r, rfl, hproject, hgrade, hpoints, hlow, ofText_render_eq_ok_iff.2 text r htext⟩

/-- A report that could be stored, were its duration not one digit too long. -/
theorem ofText_render_long : ∃ r : Report, r.Valid ∧ ofText r.render.toList ≠ .ok r := by
  have hlasting (n : Nat) : ∃ r : Report, r.Valid ∧ r.durationMs = n := by
    refine ⟨{ project := "p", projectPath := "/p", grade := .a, points := 100, durationMs := n,
              scannedAt := ⟨⟨2026, 3, 1, by decide⟩, ⟨0, by decide⟩, none⟩ }, ?_, rfl⟩
    exact ⟨Nat.le_refl 100, by simp⟩
  obtain ⟨r, hvalid, hduration⟩ := hlasting bound
  refine ⟨r, hvalid, fun h => ?_⟩
  have hwritable := isWritable_natCast.1 (valid_of_ofText h).2.duration
  rw [hduration] at hwritable
  exact Nat.lt_irrefl bound hwritable

end Report

end WorkspaceAudit
