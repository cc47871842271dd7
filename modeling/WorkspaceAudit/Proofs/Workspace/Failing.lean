import WorkspaceAudit.Proofs.Json.Checking
import WorkspaceAudit.Workspace.Discovery

/-!
# What cannot be read

Settings and manifests that are missing or malformed do no harm, but some that are there end a run
in a fault.

- `Fails x`: `x` is a fault, with one lemma for each way of putting steps together.
- `Config.Broken`: the settings are a fault; in particular if their file is no text.
- `Project.Harmful`: a manifest that is a fault; `Project.Obstructed`: one such manifest in the
  workspace is enough for the search to fail.
- `Project.Unsearchable`: all that can go wrong when a project is searched for.
-/

namespace WorkspaceAudit

/-! ## Faults of steps -/

/-- The result is a fault. -/
def Fails {α : Type} (x : Except Fault α) : Prop := ∃ fault, x = .error fault

section Steps

variable {α β : Type} {x : Except Fault α} {f : α → Except Fault β} {xs : List α}

@[simp] theorem fails_error (fault : Fault) : Fails (.error fault : Except Fault α) := ⟨fault, rfl⟩

@[simp] theorem not_fails_ok (a : α) : ¬Fails (.ok a : Except Fault α) := by
  rintro ⟨_, ⟨⟩⟩

theorem fails_bind_iff : Fails (x >>= f) ↔ Fails x ∨ ∃ a, x = .ok a ∧ Fails (f a) := by
  cases x with
  | ok a =>
    have hbind : ((.ok a : Except Fault α) >>= f) = f a := rfl
    simp [hbind]
  | error fault =>
    have hbind : ((.error fault : Except Fault α) >>= f) = .error fault := rfl
    simp [hbind]

theorem fails_map_iff {g : α → β} : Fails (x.map g) ↔ Fails x := by
  cases x <;> simp [Except.map]

/-- A row of steps fails if one of them does. -/
theorem fails_mapM_iff : Fails (xs.mapM f) ↔ ∃ a ∈ xs, Fails (f a) := by
  induction xs with
  | nil => simp [pure, Except.pure]
  | cons a xs ih =>
    rw [List.mapM_cons, fails_bind_iff]
    cases hfirst : f a with
    | error fault => simp [hfirst]
    | ok b =>
      have hrest : Fails (List.cons b <$> xs.mapM f) ↔ Fails (xs.mapM f) := fails_map_iff
      simp [hrest, ih, hfirst]

end Steps

/-! ## Files -/

namespace Disk

variable {d : Disk} {p : Path}

/-- The path or a name on its way is too long for the system to look at it. -/
def TooLong (d : Disk) (p : Path) : Prop := d.locate p .target = .error .nameTooLong

theorem fails_node?_iff : Fails (d.node? p) ↔ d.TooLong p := by
  unfold node? TooLong
  split <;> simp_all

theorem fails_exists?_iff : Fails (d.exists? p) ↔ d.TooLong p := by
  rw [exists?, fails_map_iff, fails_node?_iff]

theorem fails_isFolder?_iff : Fails (d.isFolder? p) ↔ d.TooLong p := by
  rw [isFolder?, fails_map_iff, fails_node?_iff]

/-- A file that can be opened is at the path, but its bytes are no text. -/
def Undecodable (d : Disk) (p : Path) : Prop :=
  ∃ bytes, d.readBytes p = .ok bytes ∧ Text.Utf8.decode? bytes = none

/-- A text file that can be opened is at the path. -/
def Reads (d : Disk) (p : Path) (text : List Char) : Prop :=
  ∃ bytes, d.readBytes p = .ok bytes ∧ ∃ s, Text.Utf8.decode? bytes = some s ∧
    text = Text.plainNewlines s

theorem exists?_of_readBytes {bytes : List UInt8} (h : d.readBytes p = .ok bytes) :
    d.exists? p = .ok true := by
  unfold readBytes at h
  split at h
  · cases h
  · split at h
    · rename_i hlocate
      simp [exists?, node?, hlocate, Except.map]
    all_goals cases h

theorem exists_found_of_exists? (h : d.exists? p = .ok true) :
    ∃ names node, d.locate p .target = .ok (.found names node) := by
  unfold exists? node? at h
  split at h
  · exact ⟨_, _, ‹_›⟩
  all_goals cases h

/-- What can come of opening something that is there. -/
theorem readBytes_cases (h : d.exists? p = .ok true) :
    (∃ bytes, d.readBytes p = .ok bytes) ∨
      ∃ fault, d.readBytes p = .error fault ∧ fault.ofSystem = true := by
  obtain ⟨names, node, hlocate⟩ := exists_found_of_exists? h
  unfold readBytes
  split
  · exact .inr ⟨.denied, rfl, rfl⟩
  · rw [hlocate]
    cases node with
    | file bytes => exact .inl ⟨bytes, rfl⟩
    | folder es => exact .inr ⟨.isFolder, rfl, rfl⟩
    | link target => exact .inr ⟨.notFound, rfl, rfl⟩

theorem Reads.readText_eq {text : List Char} (h : d.Reads p text) : d.readText p = .ok text := by
  obtain ⟨bytes, hbytes, s, hdecode, rfl⟩ := h
  simp [readText, readExact, hbytes, hdecode, bind, Except.bind, pure, Except.pure, Except.map]

theorem Undecodable.readText_eq (h : d.Undecodable p) : d.readText p = .error .undecodable := by
  obtain ⟨bytes, hbytes, hdecode⟩ := h
  simp [readText, readExact, hbytes, hdecode, bind, Except.bind, throw, throwThe,
    MonadExceptOf.throw, Except.map]

/-- What can come of reading something that is there. -/
theorem readText_cases (h : d.exists? p = .ok true) :
    (∃ text, d.Reads p text) ∨ d.Undecodable p ∨
      ∃ fault, d.readText p = .error fault ∧ fault.ofSystem = true := by
  rcases readBytes_cases h with ⟨bytes, hbytes⟩ | ⟨fault, hfault, hsystem⟩
  · cases hdecode : Text.Utf8.decode? bytes with
    | some s => exact .inl ⟨_, bytes, hbytes, s, hdecode, rfl⟩
    | none => exact .inr (.inl ⟨bytes, hbytes, hdecode⟩)
  · refine .inr (.inr ⟨fault, ?_, hsystem⟩)
    simp [readText, readExact, hfault, bind, Except.bind, Except.map]

end Disk

/-! ## Settings -/

/-- The settings cannot be read: their place is unknown or too long, or their file is no text. -/
def Config.Broken (m : Machine) : Prop :=
  Fails m.configPath ∨
    ∃ path, m.configPath = .ok path ∧ (m.disk.TooLong path ∨ m.disk.Undecodable path)

/-- **Only such settings are a fault.** What is missing or malformed gives the default ones. -/
theorem Config.fails_load_iff {m : Machine} : Fails (load m) ↔ Broken m := by
  unfold load Broken
  rw [fails_bind_iff]
  refine or_congr_right (exists_congr fun path => and_congr_right fun _ => ?_)
  rw [fails_bind_iff, Disk.fails_exists?_iff]
  refine or_congr_right ⟨?_, ?_⟩
  · rintro ⟨there, hthere, hfails⟩
    cases there with
    | false => exact absurd hfails (not_fails_ok _)
    | true =>
      rw [if_pos rfl] at hfails
      rcases Disk.readText_cases hthere with ⟨text, hreads⟩ | hbytes | ⟨fault, hread, hsystem⟩
      · rw [hreads.readText_eq] at hfails
        exact absurd hfails (not_fails_ok _)
      · exact hbytes
      · simp only [hread, hsystem, if_true] at hfails
        exact absurd hfails (not_fails_ok _)
  · intro hbytes
    obtain ⟨bytes, hread, -⟩ := id hbytes
    refine ⟨true, Disk.exists?_of_readBytes hread, ?_⟩
    rw [if_pos rfl, hbytes.readText_eq]
    exact fails_error _

/-! ## Manifests -/

namespace Project

variable {d : Disk} {path workspace : Path} {manifest : Json.Members} {excluded : List String}

/-- What a manifest says where a text is asked for can be used: a text, or null or nothing. -/
def IsText : Option (Json LooseText) → Prop
  | none => True
  | some .null => True
  | some (.string _) => True
  | some _ => False

theorem exists_manifestText_iff {v : Option (Json LooseText)} {name : String} :
    (∃ text, manifestText v name = .ok text) ↔ IsText v := by
  cases v with
  | none => exact iff_of_true ⟨none, rfl⟩ trivial
  | some v =>
    cases v with
    | null => exact iff_of_true ⟨none, rfl⟩ trivial
    | string s => exact iff_of_true ⟨some s.plain, rfl⟩ trivial
    | _ => exact iff_of_false (by rintro ⟨_, ⟨⟩⟩) id

/-- The manifest can be used: its last session is empty or has members, and the phase of that
session and the context are texts if they are given. -/
def Usable (manifest : Json.Members) : Prop :=
  (∃ phase, lastPhase manifest = .ok phase ∧ IsText phase) ∧ IsText (manifest.get? "quick_context")

theorem exists_texts_iff {v w : Option (Json LooseText)} {first second : String} :
    (∃ texts, (manifestText v first).and (manifestText w second) = .ok texts) ↔
      IsText v ∧ IsText w := by
  simp only [Checked.and_eq_ok_iff, Prod.exists, exists_and_left, exists_and_right,
    exists_manifestText_iff]

theorem fails_ofManifest_iff : Fails (ofManifest path manifest) ↔ ¬Usable manifest := by
  unfold ofManifest
  rw [fails_bind_iff]
  cases hphase : lastPhase manifest with
  | error fault => simp [Usable, hphase]
  | ok phase =>
    have husable : Usable manifest ↔ ∃ texts, (manifestText phase "phase").and
        (manifestText (manifest.get? "quick_context") "quick_context") = .ok texts := by
      rw [exists_texts_iff]
      simp [Usable, hphase]
    rw [husable]
    cases htexts : (manifestText phase "phase").and
        (manifestText (manifest.get? "quick_context") "quick_context") with
    | ok texts => simp [htexts, pure, Except.pure]
    | error problems => simp [htexts, throw, throwThe, MonadExceptOf.throw]

/-- There is a manifest that cannot be used: its bytes are no text, it cannot be read to its end, or
it has members of the wrong kind. -/
def Harmful (d : Disk) (manifest : Path) : Prop :=
  d.Undecodable manifest ∨ ∃ text, d.Reads manifest text ∧
    (Fails (Json.ofForeign? text) ∨
      ∃ members, Json.ofForeign? text = .ok (some (.object members)) ∧ ¬Usable members)

/-- What is in a manifest whose text can be read. -/
theorem harmful_iff_of_reads {text : List Char} {manifest : Path} (h : d.Reads manifest text) :
    Harmful d manifest ↔ Fails (Json.ofForeign? text) ∨
      ∃ members, Json.ofForeign? text = .ok (some (.object members)) ∧ ¬Usable members := by
  refine ⟨?_, fun hharmful => .inr ⟨text, h, hharmful⟩⟩
  rintro (hbytes | ⟨other, hother, hharmful⟩)
  · have hread := h.readText_eq
    rw [hbytes.readText_eq] at hread
    cases hread
  · have hread := h.readText_eq
    rw [hother.readText_eq] at hread
    obtain rfl := Except.ok.inj hread
    exact hharmful

theorem not_harmful_of_ofSystem {manifest : Path} {fault : Fault}
    (h : d.readText manifest = .error fault) (hsystem : fault.ofSystem = true) :
    ¬Harmful d manifest := by
  rintro (hbytes | ⟨text, hreads, -⟩)
  · rw [hbytes.readText_eq] at h
    obtain rfl := Except.error.inj h
    cases hsystem
  · rw [hreads.readText_eq] at h
    cases h

section Describe

variable {members : Json.Members} {fault : Fault}

theorem describe_of_members (h : d.exists? (path.extend manifestNames) = .ok true)
    (hread : readManifest d (path.extend manifestNames) = .ok (some members)) :
    describe d path = (ofManifest path members).map some := by
  simp [describe, h, hread, bind, Except.bind]

theorem describe_of_no_members (h : d.exists? (path.extend manifestNames) = .ok true)
    (hread : readManifest d (path.extend manifestNames) = .ok none) :
    describe d path = .ok (some (plain path)) := by
  simp [describe, h, hread, bind, Except.bind, pure, Except.pure]

theorem describe_of_fault (h : d.exists? (path.extend manifestNames) = .ok true)
    (hread : readManifest d (path.extend manifestNames) = .error fault) :
    describe d path = .error fault := by
  simp [describe, h, hread, bind, Except.bind]

end Describe

/-- A folder with a manifest cannot be described if and only if the manifest cannot be used. -/
theorem fails_describe_of_exists (h : d.exists? (path.extend manifestNames) = .ok true) :
    Fails (describe d path) ↔ Harmful d (path.extend manifestNames) := by
  rcases Disk.readText_cases h with ⟨text, hreads⟩ | hbytes | ⟨fault, hread, hsystem⟩
  · -- The manifest is text, and may do harm when it is read as JSON or by the members of an object.
    have hread := hreads.readText_eq
    rw [harmful_iff_of_reads hreads]
    cases hforeign : Json.ofForeign? text with
    | error fault =>
      have hmanifest : readManifest d (path.extend manifestNames) = .error fault := by
        simp [readManifest, hread, hforeign, bind, Except.bind]
      rw [describe_of_fault h hmanifest]
      exact iff_of_true (fails_error fault) (.inl (fails_error fault))
    | ok v =>
      by_cases hobject : ∃ members, v = some (.object members)
      · obtain ⟨members, rfl⟩ := hobject
        have hmanifest : readManifest d (path.extend manifestNames) = .ok (some members) := by
          simp [readManifest, hread, hforeign, bind, Except.bind, pure, Except.pure]
        rw [describe_of_members h hmanifest, fails_map_iff, fails_ofManifest_iff]
        simp
      · have hmanifest : readManifest d (path.extend manifestNames) = .ok none := by
          simp only [readManifest, hread, hforeign, bind, Except.bind]
          split
          · exact absurd ⟨_, rfl⟩ hobject
          · rfl
        rw [describe_of_no_members h hmanifest]
        refine iff_of_false (not_fails_ok _) ?_
        rintro (hfails | ⟨members, hmembers, -⟩)
        · exact not_fails_ok _ hfails
        · exact hobject ⟨members, Except.ok.inj hmembers⟩
  · -- It is no text.
    have hmanifest : readManifest d (path.extend manifestNames) = .error .undecodable := by
      simp [readManifest, hbytes.readText_eq, Fault.ofSystem]
    rw [describe_of_fault h hmanifest]
    exact iff_of_true (fails_error _) (.inl hbytes)
  · -- The system does not give it away, as for a folder of that name; this counts as no manifest.
    have hmanifest : readManifest d (path.extend manifestNames) = .ok none := by
      simp [readManifest, hread, hsystem]
    rw [describe_of_no_members h hmanifest]
    exact iff_of_false (not_fails_ok _) (not_harmful_of_ofSystem hread hsystem)

theorem exists?_of_harmful {manifest : Path} (h : Harmful d manifest) :
    d.exists? manifest = .ok true := by
  rcases h with ⟨bytes, hbytes, -⟩ | ⟨text, ⟨bytes, hbytes, -⟩, -⟩
  all_goals exact Disk.exists?_of_readBytes hbytes

/-- The folder cannot be described: its manifest cannot be used, or names are too long for the
system to look for the manifest or, if there is none, for a file that marks a project. -/
def Obscure (d : Disk) (path : Path) : Prop :=
  d.TooLong (path.extend manifestNames) ∨ Harmful d (path.extend manifestNames) ∨
    d.exists? (path.extend manifestNames) = .ok false ∧
      Fails (markers.anyM fun marker => d.exists? (path.extend [marker]))

theorem fails_describe_iff : Fails (describe d path) ↔ Obscure d path := by
  unfold Obscure
  cases hthere : d.exists? (path.extend manifestNames) with
  | error fault =>
    have hlong : d.TooLong (path.extend manifestNames) := Disk.fails_exists?_iff.1 ⟨fault, hthere⟩
    refine iff_of_true ⟨fault, ?_⟩ (.inl hlong)
    simp [describe, hthere, bind, Except.bind]
  | ok there =>
    have hlong : ¬d.TooLong (path.extend manifestNames) := by
      rw [← Disk.fails_exists?_iff, hthere]
      exact not_fails_ok there
    cases there with
    | true => simp [fails_describe_of_exists hthere, hlong]
    | false =>
      have hharmful : ¬Harmful d (path.extend manifestNames) := fun h => by
        rw [exists?_of_harmful h] at hthere
        cases hthere
      have hdescribe : Fails (describe d path) ↔
          Fails (markers.anyM fun marker => d.exists? (path.extend [marker])) := by
        have hmarkers : describe d path = (do
            if ← markers.anyM fun marker => d.exists? (path.extend [marker]) then
              return some (plain path)
            else return none) := by
          simp [describe, hthere, bind, Except.bind]
        rw [hmarkers, fails_bind_iff]
        refine or_iff_left ?_
        rintro ⟨marked, -, hfails⟩
        cases marked <;> exact not_fails_ok _ hfails
      simp [hdescribe, hlong, hharmful]

/-! ## The search for a project -/

/-- An entry of a workspace that cannot be looked at, or a folder that is visible and cannot be
described. -/
def Obstructs (d : Disk) (workspace : Path) (excluded : List String) (name : String) : Prop :=
  d.TooLong (workspace.extend [name]) ∨
    d.isFolder? (workspace.extend [name]) = .ok true ∧ isVisible excluded name = true ∧
      Obscure d (workspace.extend [name])

theorem fails_ofEntry_iff {name : String} :
    Fails (ofEntry d workspace excluded name) ↔ Obstructs d workspace excluded name := by
  unfold ofEntry Obstructs
  rw [fails_bind_iff, Disk.fails_isFolder?_iff, ← fails_describe_iff]
  refine or_congr_right ⟨?_, ?_⟩
  · rintro ⟨isFolder, hfolder, hfails⟩
    split at hfails
    · rename_i hvisible
      obtain ⟨rfl, hvisible⟩ := Bool.and_eq_true_iff.1 hvisible
      exact ⟨hfolder, hvisible, hfails⟩
    · exact absurd hfails (not_fails_ok _)
  · rintro ⟨hfolder, hvisible, hfails⟩
    refine ⟨true, hfolder, ?_⟩
    rw [hvisible]
    exact hfails

/-- The projects of a workspace cannot be told: it cannot be looked at, or one of its entries is an
obstruction. -/
def Obstructed (d : Disk) (workspace : Path) (excluded : List String) : Prop :=
  d.TooLong workspace ∨ d.isFolder? workspace = .ok true ∧
    ∃ entries, d.list workspace = .ok entries ∧
      ∃ entry ∈ entries, Obstructs d workspace excluded entry.1

/-- **One folder is enough for the search to fail**, whichever project is searched for. -/
theorem fails_discover_iff :
    Fails (discover d workspace excluded) ↔ Obstructed d workspace excluded := by
  unfold discover Obstructed
  simp only [← fails_ofEntry_iff]
  rw [fails_bind_iff, Disk.fails_isFolder?_iff]
  refine or_congr_right ⟨?_, ?_⟩
  · rintro ⟨isFolder, hfolder, hfails⟩
    cases isFolder with
    | false => exact absurd hfails (not_fails_ok _)
    | true =>
      rw [if_pos rfl] at hfails
      cases hlist : d.list workspace with
      -- A folder that cannot be listed has no projects, which is no failure.
      | error fault =>
        rw [hlist] at hfails
        exact absurd hfails (not_fails_ok _)
      | ok entries =>
        rw [hlist] at hfails
        rcases fails_bind_iff.1 hfails with hentries | ⟨found, -, hfound⟩
        · exact ⟨hfolder, entries, rfl, fails_mapM_iff.1 hentries⟩
        · exact absurd hfound (not_fails_ok _)
  · rintro ⟨hfolder, entries, hlist, hentry⟩
    refine ⟨true, hfolder, ?_⟩
    rw [if_pos rfl, hlist]
    exact fails_bind_iff.2 (.inl (fails_mapM_iff.2 hentry))

/-- No project of the list has the name or path that is searched for. -/
def Missing (projects : List Project) (target : String) : Prop :=
  ∀ p ∈ projects, target ≠ p.name ∧ target ≠ p.path

/-- The folder of a path that no project of the workspace has cannot be looked for. -/
def Unreachable (m : Machine) (target : String) : Prop :=
  Fails (m.expandHome (.ofString target)) ∨ ∃ path, m.expandHome (.ofString target) = .ok path ∧
    (m.disk.TooLong path ∨ m.disk.isFolder? path = .ok true ∧ Fails (m.disk.resolve path))

/-- The search for a project fails: the workspace is unknown or obstructed, or no project of it is
the one that is searched for, and its folder cannot be looked for either. -/
def Unsearchable (m : Machine) (config : Config) (target : String) : Prop :=
  Fails (config.workspace m) ∨
    ∃ workspace, config.workspace m = .ok workspace ∧
      (Obstructed m.disk workspace config.excluded ∨
        ∃ projects, discover m.disk workspace config.excluded = .ok projects ∧
          Missing projects target ∧ Unreachable m target)

theorem fails_find?_iff {m : Machine} {config : Config} {target : String} :
    Fails (find? m config target) ↔ Unsearchable m config target := by
  unfold find? Unsearchable
  simp only [← fails_discover_iff]
  rw [fails_bind_iff]
  refine or_congr_right (exists_congr fun workspace => and_congr_right fun _ => ?_)
  rw [fails_bind_iff]
  refine or_congr_right (exists_congr fun projects => and_congr_right fun _ => ?_)
  cases hfind : projects.find? fun p => target == p.name || target == p.path with
  | some p =>
    have hmissing : ¬Missing projects target := fun hmissing => by
      have hp := List.find?_some hfind
      obtain ⟨hname, hpath⟩ := hmissing p (List.mem_of_find?_eq_some hfind)
      simp [hname, hpath] at hp
    exact iff_of_false (not_fails_ok _) fun h => hmissing h.1
  | none =>
    have hmissing : Missing projects target := fun p hp => by
      have hnot := List.find?_eq_none.1 hfind p hp
      simpa using hnot
    rw [and_iff_right hmissing, Unreachable]
    dsimp only
    rw [fails_bind_iff]
    refine or_congr_right (exists_congr fun path => and_congr_right fun _ => ?_)
    rw [fails_bind_iff, Disk.fails_isFolder?_iff]
    refine or_congr_right ⟨?_, ?_⟩
    · rintro ⟨isFolder, hfolder, hfails⟩
      cases isFolder with
      | false => exact absurd hfails (not_fails_ok _)
      | true =>
        rcases fails_bind_iff.1 hfails with hresolve | ⟨found, -, hfound⟩
        · exact ⟨hfolder, hresolve⟩
        · exact absurd hfound (not_fails_ok _)
    · rintro ⟨hfolder, hresolve⟩
      exact ⟨true, hfolder, fails_bind_iff.2 (.inl hresolve)⟩

end Project

end WorkspaceAudit
