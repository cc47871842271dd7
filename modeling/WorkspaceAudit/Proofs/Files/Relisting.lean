import WorkspaceAudit.Proofs.Files.Asking

/-!
# The order in which folders are listed

The system may list the entries of a folder in any order. Two trees agree if the same is found in
them under the same names; the order is all that may be different.

- `Node.Agrees`: the same is at the same names in two trees.
- `Node.SameOutcome`: walks along names end alike. They do in trees that agree, by what they ask
  about (`Node.walk_sameOutcome`); `Disk.Agrees.locate`: so it is for paths.
- `Disk.Agrees.resolve_eq`: paths resolve to the same; `Disk.Agrees.readSource_eq`: files have the
  same text.
-/

namespace WorkspaceAudit

namespace Node

/-- The same is at the same names in both trees. -/
def Agrees (node other : Node) : Prop :=
  ∀ names, (node.find? names).map bare = (other.find? names).map bare

namespace Agrees

variable {node other : Node} {entries others : List (String × Node)}

theorem symm (h : node.Agrees other) : other.Agrees node :=
  fun names => (h names).symm

theorem bare_eq (h : node.Agrees other) : node.bare = other.bare :=
  Option.some.inj (h [])

/-- What is under the same names agrees as well, or nothing is there. -/
theorem find? (h : node.Agrees other) (names : List String) :
    (node.find? names = none ∧ other.find? names = none) ∨
    ∃ found found', node.find? names = some found ∧ other.find? names = some found' ∧
      found.Agrees found' := by
  have hbelow (more : List String) := h (names ++ more)
  simp only [find?_append] at hbelow
  cases hnode : node.find? names with
  | none =>
    have hnone := hbelow []
    rw [hnode] at hnone
    cases hother : other.find? names with
    | none => exact .inl ⟨rfl, rfl⟩
    | some found => rw [hother] at hnone; cases hnone
  | some found =>
    cases hother : other.find? names with
    | none =>
      have hnone := hbelow []
      rw [hnode, hother] at hnone
      cases hnone
    | some found' =>
      refine .inr ⟨found, found', rfl, rfl, fun more => ?_⟩
      have hmore := hbelow more
      rwa [hnode, hother] at hmore

theorem lookup (h : Agrees (.folder entries) (.folder others)) (name : String) :
    (entries.lookup name = none ∧ others.lookup name = none) ∨
    ∃ entry entry', entries.lookup name = some entry ∧ others.lookup name = some entry' ∧
      entry.Agrees entry' := by
  have hone (entries : List (String × Node)) :
      (Node.folder entries).find? [name] = entries.lookup name := by
    rw [find?_folder_cons]
    cases entries.lookup name <;> rfl
  simpa only [hone] using h.find? [name]

/-- Trees that agree are of one kind. -/
theorem file_or_link_or_folder (h : node.Agrees other) :
    (∃ bytes, node = .file bytes ∧ other = .file bytes) ∨
    (∃ target, node = .link target ∧ other = .link target) ∨
    ∃ entries others, node = .folder entries ∧ other = .folder others :=
  Node.file_or_link_or_folder h.bare_eq

theorem find?_eq_file {names : List String} {bytes : List UInt8} (h : node.Agrees other) :
    node.find? names = some (.file bytes) ↔ other.find? names = some (.file bytes) := by
  rw [← map_bare_eq_file, h names, map_bare_eq_file]

theorem find?_eq_link {names : List String} {target : String} (h : node.Agrees other) :
    node.find? names = some (.link target) ↔ other.find? names = some (.link target) := by
  rw [← map_bare_eq_link, h names, map_bare_eq_link]

end Agrees

/-! ## Walks -/

/-- Two walks end alike: at the same names, where the same is, or with the same fault. -/
inductive SameOutcome : Except Fault Place → Except Fault Place → Prop where
  | found (names : List String) {node other : Node} (h : node.Agrees other) :
      SameOutcome (.ok (.found names node)) (.ok (.found names other))
  | free (folder : List String) (name : String) :
      SameOutcome (.ok (.free folder name)) (.ok (.free folder name))
  | error (fault : Fault) : SameOutcome (.error fault) (.error fault)

theorem SameOutcome.exists_found {outcome outcome' : Except Fault Place} {names : List String}
    {node : Node} (h : SameOutcome outcome outcome') (hfound : outcome = .ok (.found names node)) :
    ∃ other, outcome' = .ok (.found names other) ∧ node.Agrees other := by
  cases h with
  | found names' hagrees =>
    obtain ⟨rfl, rfl⟩ := Place.found.inj (Except.ok.inj hfound)
    exact ⟨_, rfl, hagrees⟩
  | free folder name => cases hfound
  | error fault => cases hfound

variable {top top' : Node} {aim : Aim}

/-- **Walks end alike in trees that agree**: the same is at all the places that they ask about. -/
theorem walk_sameOutcome (htop : top.Agrees top') (links : Nat) (here todo : List String) :
    SameOutcome (walk top aim links here todo) (walk top' aim links here todo) := by
  have hbare : (walk top aim links here todo).map Place.bare =
      (walk top' aim links here todo).map Place.bare :=
    walk_of_asks (htop []) links (htop here.reverse) fun x _ => htop x
  rcases Place.cases_of_bare hbare with
    ⟨fault, h, h'⟩ | ⟨names, node, node', h, h', -⟩ | ⟨folder, name, h, h'⟩
  · rw [h, h']
    exact .error fault
  · have hnode : top.find? names = some node := walk_isIn h
    have hnode' : top'.find? names = some node' := walk_isIn h'
    rw [h, h']
    rcases htop.find? names with ⟨hnone, -⟩ | ⟨found, found', hfound, hfound', hagrees⟩
    · cases hnone.symm.trans hnode
    · obtain rfl := Option.some.inj (hfound.symm.trans hnode)
      obtain rfl := Option.some.inj (hfound'.symm.trans hnode')
      exact .found names hagrees
  · rw [h, h']
    exact .free folder name

/-! ## Settling -/

/-- Names settle by the links on the way alone. -/
theorem settleWith_congr {find find' : Spot → Option Node}
    {enter : LinksMet → Spot → String → Settled × LinksMet}
    (hfind : ∀ s target, find s = some (.link target) ↔ find' s = some (.link target))
    (met : LinksMet) (spot : Spot) (names : List String) :
    settleWith find enter met spot names = settleWith find' enter met spot names := by
  induction names generalizing met spot with
  | nil => simp only [settleWith]
  | cons name rest ih =>
    rw [settleWith, settleWith]
    split
    · exact ih met spot
    split
    · exact ih met spot.up
    by_cases hlink : ∃ target, find (spot.down name) = some (.link target)
    · obtain ⟨target, htarget⟩ := hlink
      simp only [htarget, (hfind _ _).1 htarget, ih]
    · split
      · exact absurd ⟨_, ‹_›⟩ hlink
      split
      · exact absurd ⟨_, (hfind _ _).2 ‹_›⟩ hlink
      exact ih met (spot.down name)

theorem settleLink_congr {find find' : Spot → Option Node}
    (hfind : ∀ s target, find s = some (.link target) ↔ find' s = some (.link target))
    (limit : Nat) : settleLink find limit = settleLink find' limit := by
  induction limit with
  | zero => rfl
  | succ limit ih =>
    funext met spot target
    simp only [settleLink, ih, settleWith_congr hfind]

/-- Trees with the same links settle names in the same way. -/
theorem settle_congr (hlinks : ∀ names target, top.find? names = some (.link target) ↔
      top'.find? names = some (.link target)) (here : List String) (spot : Spot)
    (names : List String) : settle top here spot names = settle top' here spot names := by
  have hfind (s : Spot) (target : String) : top.find? (s.absolute here) = some (.link target) ↔
      top'.find? (s.absolute here) = some (.link target) := hlinks _ _
  simp only [settle, settleLink_congr hfind, settleWith_congr hfind]

end Node

namespace Disk

open Node

variable {d d' : Disk}

/-- Disks that are the same, but for the order in which their folders are listed. -/
structure Agrees (d d' : Disk) : Prop where
  top : d.top.Agrees d'.top
  here : d.here = d'.here
  closed : d.closed = d'.closed

theorem Agrees.symm (h : d.Agrees d') : d'.Agrees d :=
  ⟨h.top.symm, h.here.symm, h.closed.symm⟩

theorem Agrees.isClosed_eq (h : d.Agrees d') (p : Path) : d.isClosed p = d'.isClosed p := by
  rw [isClosed, isClosed, h.closed]

/-- **Paths lead to the same place** in whatever order folders are listed. -/
theorem Agrees.locate (h : d.Agrees d') (p : Path) (aim : Aim) :
    SameOutcome (d.locate p aim) (d'.locate p aim) := by
  unfold Disk.locate
  rw [h.here]
  split
  · exact .error _
  split
  · exact .error _
  · exact walk_sameOutcome h.top _ _ _

/-- **Paths resolve to the same path.** -/
theorem Agrees.resolve_eq (h : d.Agrees d') (p : Path) : d.resolve p = d'.resolve p := by
  have hsettled : d.settled p = d'.settled p := by
    simp only [settled, h.here, settle_congr fun _ _ => h.top.find?_eq_link]
  unfold resolve
  rw [hsettled]
  split
  · rfl
  cases d'.settled p with
  | error fault => simp only [bind, Except.bind]
  | ok q =>
    simp only [bind, Except.bind]
    have houtcome := h.locate q .target
    generalize d.locate q .target = outcome, d'.locate q .target = outcome' at houtcome ⊢
    cases houtcome <;> rfl

/-- **Files have the same bytes.** -/
theorem Agrees.readBytes_eq (h : d.Agrees d') (p : Path) : d.readBytes p = d'.readBytes p :=
  (readBytes_of_asks h.here.symm h.closed.symm (h.top []) (h.top _) fun x _ => h.top x).symm

theorem Agrees.readSource_eq (h : d.Agrees d') (p : Path) : d.readSource p = d'.readSource p := by
  rw [readSource, readSource, h.readBytes_eq]

end Disk

end WorkspaceAudit
