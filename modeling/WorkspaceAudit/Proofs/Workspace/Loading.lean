import WorkspaceAudit.Proofs.Json.LineEnds
import WorkspaceAudit.Proofs.Workspace.Settings

/-!
# Loading settings

The settings are those of their file, if it holds some, and the default ones if it is missing,
cannot be opened or holds anything else. Two states of the file are not met by this rule and are
faults: a path that is too long, and bytes that are no text.

- `Config.Describes`: what the members of an object say about settings; `Config.check_eq_ok_iff`:
  exactly such objects are accepted.
- `Config.HeldAt`: a file holds settings.
- `Config.settingsAt`: the settings at a path; `Config.load_of_readable`: they are loaded, if none
  of the two faults is in the way.
- `Config.load_eq_ok_iff`: so the rule holds of every other state of the file, and the two faults
  are not caught.
-/

namespace WorkspaceAudit

/-- What a check finds in a text does not depend on how the lines of the text end. -/
theorem Checked.ofText_plainNewlines {α : Type} (check : Json → Checked α) (s : List Char) :
    (ofText check (Text.plainNewlines s)).toOption = (ofText check s).toOption := by
  unfold ofText
  cases hplain : Json.parse .own (Text.plainNewlines s) with
  | ok v => rw [Json.parse_plainNewlines_iff.1 hplain]
  | error e =>
    cases hexact : Json.parse .own s with
    | ok v =>
      rw [Json.parse_plainNewlines_iff.2 hexact] at hplain
      cases hplain
    | error e' => rfl

namespace Disk

variable {d : Disk} {p : Path}

theorem TooLong.exists?_eq (h : d.TooLong p) : d.exists? p = .error .nameTooLong := by
  have hlocate : d.locate p .target = .error .nameTooLong := h
  simp [exists?, node?, hlocate, Except.map]

theorem Undecodable.exists?_eq (h : d.Undecodable p) : d.exists? p = .ok true := by
  obtain ⟨bytes, hbytes, -⟩ := h
  exact exists?_of_readBytes hbytes

theorem not_tooLong_of_readBytes {bytes : List UInt8} (h : d.readBytes p = .ok bytes) :
    ¬d.TooLong p := by
  intro hlong
  rw [← fails_exists?_iff, exists?_of_readBytes h] at hlong
  exact not_fails_ok _ hlong

/-- Nothing can be read where nothing is. -/
theorem readBytes_toOption_of_not_exists? (h : d.exists? p = .ok false) :
    (d.readBytes p).toOption = none := by
  cases hread : d.readBytes p with
  | error fault => rfl
  | ok bytes =>
    rw [exists?_of_readBytes hread] at h
    cases h

end Disk

namespace Config

variable {c : Config} {m : Machine} {path : Path}

/-! ## What is accepted -/

/-- The members of an object describe settings: each of the three that is there says what the
settings are, and for one that is missing they have its default. -/
structure Describes (c : Config) (members : List (String × Json)) : Prop where
  root : (members.lookup "workspace_root" = some (.ofOption .string c.workspaceRoot)) ∨
    members.lookup "workspace_root" = none ∧ c.workspaceRoot = none
  level : members.lookup "block_on_severity" = some (.string c.blockOn.name) ∨
    members.lookup "block_on_severity" = none ∧ c.blockOn = .critical
  excluded : members.lookup "exclude_projects" = some (.array (c.excluded.map .string)) ∨
    members.lookup "exclude_projects" = none ∧ c.excluded = []

theorem text_eq_ok_iff {v : Json} {text : String} :
    Check.text v = .ok text ↔ v = .string text := by
  cases v <;> simp [Check.text, Checked.fail]

theorem optional_text_eq_ok_iff {v : Json} {text : Option String} :
    Check.nullable Check.text v = .ok text ↔ v = .ofOption .string text := by
  rw [Check.nullable_eq_ok_iff]
  cases text with
  | none => simp [Json.ofOption]
  | some text => cases v <;> simp [Json.ofOption, text_eq_ok_iff]

theorem named_level_eq_ok_iff {v : Json} {level : BlockLevel} :
    Check.named BlockLevel.ofName? .notLevel v = .ok level ↔ v = .string level.name := by
  cases v with
  | string s =>
    rw [Check.named]
    have hname : BlockLevel.ofName? s = some level ↔ s = level.name :=
      BlockLevel.ofName?_eq_some_iff.trans eq_comm
    cases hs : BlockLevel.ofName? s with
    | none => simpa [hs, Checked.fail] using hname
    | some other => simpa [hs] using hname
  | _ => simp [Check.named, Checked.fail]

theorem list_text_eq_ok_iff {v : Json} {texts : List String} :
    Check.list Check.text v = .ok texts ↔ v = .array (texts.map .string) := by
  cases v with
  | array items =>
    rw [Check.list, Check.itemsFrom_eq_ok_iff, Json.array.injEq]
    constructor
    · intro h
      induction items generalizing texts with
      | nil => rw [List.map_eq_nil_iff.1 h.symm, List.map_nil]
      | cons v items ih =>
        obtain ⟨text, rest, rfl, htext, hrest⟩ := List.map_eq_cons_iff.1 h.symm
        rw [List.map_cons, ← ih hrest.symm, ← text_eq_ok_iff.1 htext.symm]
    · rintro rfl
      rw [List.map_map]
      rfl
  | _ => simp [Check.list, Checked.fail]

/-- **Exactly the objects that describe settings are accepted.** -/
theorem check_eq_ok_iff {v : Json} :
    check v = .ok c ↔ ∃ members, v = .object members ∧ c.Describes members := by
  cases v with
  | object members =>
    simp only [check, Check.object, Checked.map_eq_ok_iff, Checked.and_eq_ok_iff, Prod.exists,
      Check.optional, Check.withDefault_eq_ok_iff, optional_text_eq_ok_iff, named_level_eq_ok_iff,
      list_text_eq_ok_iff, exists_eq_right]
    constructor
    · rintro ⟨root, level, excluded, ⟨hroot, hlevel, hexcluded⟩, rfl⟩
      exact ⟨members, rfl, hroot.imp_right fun h => ⟨h.1, h.2.symm⟩,
        hlevel.imp_right fun h => ⟨h.1, h.2.symm⟩, hexcluded.imp_right fun h => ⟨h.1, h.2.symm⟩⟩
    · rintro ⟨_, ⟨⟩, hroot, hlevel, hexcluded⟩
      exact ⟨_, _, _, ⟨hroot.imp_right fun h => ⟨h.1, h.2.symm⟩,
        hlevel.imp_right fun h => ⟨h.1, h.2.symm⟩, hexcluded.imp_right fun h => ⟨h.1, h.2.symm⟩⟩,
        rfl⟩
  | _ => simp [check, Check.object, Checked.fail]

/-- A file that can be opened is at the path, and its bytes are a text of JSON that describes the
settings. -/
def HeldAt (c : Config) (d : Disk) (path : Path) : Prop :=
  ∃ bytes s members, d.readBytes path = .ok bytes ∧ Text.Utf8.decode? bytes = some s ∧
    Json.parse .own s = .ok (.object members) ∧ c.Describes members

theorem ofText_eq_ok_iff {s : List Char} :
    Checked.ofText check s = .ok c ↔
      ∃ members, Json.parse .own s = .ok (.object members) ∧ c.Describes members := by
  unfold Checked.ofText
  cases Json.parse .own s with
  | ok v => simp [check_eq_ok_iff]
  | error e => simp [Checked.fail]

/-! ## What is loaded -/

/-- The settings that are written by some bytes: the default ones, unless the bytes are a text from
which settings can be read. -/
def ofBytes (bytes : List UInt8) : Config :=
  ((Text.Utf8.decode? bytes).bind fun s => (Checked.ofText check s).toOption).getD {}

/-- The settings at a path: the default ones, unless a file that can be opened holds others. -/
def settingsAt (d : Disk) (path : Path) : Config :=
  ((d.readBytes path).toOption.map ofBytes).getD {}

/-- A file with a text. -/
theorem settingsAt_of_reads {d : Disk} {text : List Char} (h : d.Reads path text) :
    settingsAt d path = ((Checked.ofText check text).toOption).getD {} := by
  obtain ⟨bytes, hbytes, s, hdecode, rfl⟩ := h
  rw [settingsAt, hbytes, Checked.ofText_plainNewlines]
  simp [ofBytes, hdecode, Except.toOption]

theorem load_of_tooLong (hpath : m.configPath = .ok path) (h : m.disk.TooLong path) :
    load m = .error .nameTooLong := by
  simp only [load, hpath, h.exists?_eq, bind, Except.bind]

theorem load_of_undecodable (hpath : m.configPath = .ok path) (h : m.disk.Undecodable path) :
    load m = .error .undecodable := by
  simp only [load, hpath, h.exists?_eq, h.readText_eq, bind, Except.bind, if_true]
  rfl

/-- The settings of every path that can be looked at and whose file, if it can be opened, is a
text. -/
theorem load_of_readable (hpath : m.configPath = .ok path) (hshort : ¬m.disk.TooLong path)
    (htext : ¬m.disk.Undecodable path) : load m = .ok (settingsAt m.disk path) := by
  cases hthere : m.disk.exists? path with
  | error fault => exact absurd (Disk.fails_exists?_iff.1 ⟨fault, hthere⟩) hshort
  | ok there =>
    cases there with
    | false =>
      simp only [load, hpath, hthere, bind, Except.bind, settingsAt,
        Disk.readBytes_toOption_of_not_exists? hthere]
      rfl
    | true =>
      rcases Disk.readBytes_cases hthere with ⟨bytes, hbytes⟩ | ⟨fault, hbytes, hsystem⟩
      · cases hdecode : Text.Utf8.decode? bytes with
        | none => exact absurd ⟨bytes, hbytes, hdecode⟩ htext
        | some s =>
          have hreads : m.disk.Reads path (Text.plainNewlines s) := ⟨bytes, hbytes, s, hdecode, rfl⟩
          simp only [load, hpath, hthere, hreads.readText_eq, settingsAt_of_reads hreads, bind,
            Except.bind, if_true]
          rfl
      · have hread : m.disk.readText path = .error fault := by
          simp [Disk.readText, Disk.readExact, hbytes, bind, Except.bind, Except.map]
        simp only [load, hpath, hthere, hread, hsystem, bind, Except.bind, if_true, settingsAt,
          hbytes]
        rfl

/-- A file holds at most one choice of settings, and that is the one at its path. -/
theorem HeldAt.settingsAt_eq {d : Disk} (h : c.HeldAt d path) : settingsAt d path = c := by
  obtain ⟨bytes, s, members, hbytes, hdecode, hparse, hdescribes⟩ := h
  have hcheck := ofText_eq_ok_iff.2 ⟨members, hparse, hdescribes⟩
  simp [settingsAt, ofBytes, hbytes, hdecode, hcheck, Except.toOption]

theorem settingsAt_of_not_heldAt {d : Disk} (h : ∀ c : Config, ¬c.HeldAt d path) :
    settingsAt d path = {} := by
  unfold settingsAt
  cases hbytes : d.readBytes path with
  | error fault => rfl
  | ok bytes =>
    have hnone : (Text.Utf8.decode? bytes).bind
        (fun s => (Checked.ofText check s).toOption) = none := by
      rw [Option.bind_eq_none_iff]
      intro s hdecode
      cases hcheck : Checked.ofText check s with
      | error problems => rfl
      | ok c =>
        obtain ⟨members, hparse, hdescribes⟩ := ofText_eq_ok_iff.1 hcheck
        exact absurd ⟨bytes, s, members, hbytes, hdecode, hparse, hdescribes⟩ (h c)
    have hdefault : ofBytes bytes = {} := by rw [ofBytes, hnone, Option.getD_none]
    exact hdefault

theorem settingsAt_eq_iff {d : Disk} :
    settingsAt d path = c ↔ c.HeldAt d path ∨ c = {} ∧ ∀ other : Config, ¬other.HeldAt d path := by
  constructor
  · rintro rfl
    by_cases hheld : ∃ other : Config, other.HeldAt d path
    · obtain ⟨other, hother⟩ := hheld
      rw [hother.settingsAt_eq]
      exact .inl hother
    · exact .inr ⟨settingsAt_of_not_heldAt (not_exists.1 hheld), not_exists.1 hheld⟩
  · rintro (hheld | ⟨rfl, hnone⟩)
    · exact hheld.settingsAt_eq
    · exact settingsAt_of_not_heldAt hnone

/-- **Settings that are missing or malformed are the default ones; two faults are not caught.** If
the path of the settings is not too long, and a file that can be opened there is a text, the
settings are those that the file holds, and the default ones if it holds none: also if nothing is
at the path, or a folder, or a file that may not be opened. A path that is too long and a file that
is no text end in a fault. -/
theorem load_eq_ok_iff (hpath : m.configPath = .ok path) :
    (¬m.disk.TooLong path → ¬m.disk.Undecodable path → ∀ c : Config, load m = .ok c ↔
      c.HeldAt m.disk path ∨ c = {} ∧ ∀ other : Config, ¬other.HeldAt m.disk path) ∧
    (m.disk.TooLong path → load m = .error .nameTooLong) ∧
    (m.disk.Undecodable path → load m = .error .undecodable) := by
  refine ⟨fun hshort htext c => ?_, load_of_tooLong hpath, load_of_undecodable hpath⟩
  rw [load_of_readable hpath hshort htext, Except.ok.injEq, settingsAt_eq_iff]

/-- A machine with some bytes for its settings. -/
def settingsMachine (bytes : List UInt8) : Machine where
  disk := { top := .folder [("s", .file bytes)], here := [] }
  environment := [("SECUREDEV_CONFIG", "/s")]
  clock := ⟨0, true⟩
  readings := []

theorem configPath_settingsMachine (bytes : List UInt8) :
    (settingsMachine bytes).configPath = .ok ⟨.root, ["s"]⟩ := rfl

theorem readBytes_settingsMachine (bytes : List UInt8) :
    (settingsMachine bytes).disk.readBytes ⟨.root, ["s"]⟩ = .ok bytes := rfl

/-- A file whose lines end with carriage returns, with and without line feeds. -/
theorem load_eq_ok_returns :
    load (settingsMachine (Text.Utf8.encode
      "\x7b\r\n\"block_on_severity\":\r\"HIGH\"\x7d\r\n".toList)) =
      .ok { blockOn := .high } := by
  have hcheck : Checked.ofText check "\x7b\r\n\"block_on_severity\":\r\"HIGH\"\x7d\r\n".toList =
      .ok { blockOn := .high } := by decide +kernel
  generalize "\x7b\r\n\"block_on_severity\":\r\"HIGH\"\x7d\r\n".toList = s at hcheck
  obtain ⟨members, hparse, hdescribes⟩ := ofText_eq_ok_iff.1 hcheck
  have hbytes := readBytes_settingsMachine (Text.Utf8.encode s)
  have htext : ¬(settingsMachine (Text.Utf8.encode s)).disk.Undecodable ⟨.root, ["s"]⟩ := by
    rintro ⟨bytes, hread, hdecode⟩
    obtain rfl := Except.ok.inj (hbytes.symm.trans hread)
    rw [Text.Utf8.decode?_encode] at hdecode
    cases hdecode
  exact ((load_eq_ok_iff (configPath_settingsMachine _)).1 (Disk.not_tooLong_of_readBytes hbytes)
    htext _).2 (.inl ⟨_, s, members, hbytes, Text.Utf8.decode?_encode s, hparse, hdescribes⟩)

/-- A file of one byte that is no text: it holds no settings, and the default ones are not
loaded. -/
theorem load_uncaught :
    (∀ c : Config, ¬c.HeldAt (settingsMachine [0xff]).disk ⟨.root, ["s"]⟩) ∧
      load (settingsMachine [0xff]) = .error .undecodable := by
  have hdecode : Text.Utf8.decode? [0xff] = none := by decide
  have hbytes := readBytes_settingsMachine [0xff]
  constructor
  · rintro c ⟨bytes, s, members, hread, hsome, -⟩
    obtain rfl := Except.ok.inj (hbytes.symm.trans hread)
    rw [hdecode] at hsome
    cases hsome
  · exact load_of_undecodable (configPath_settingsMachine _) ⟨_, hbytes, hdecode⟩

end Config

end WorkspaceAudit
