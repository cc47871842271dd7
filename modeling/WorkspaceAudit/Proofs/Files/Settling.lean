import WorkspaceAudit.Proofs.Files.Links
import WorkspaceAudit.Proofs.Text.Located

/-!
# Names of settled paths

The names that a path settles to are its own, those of the links on its way and those of the working
folder. The first two are read from texts that are cut at their slashes.

- `SlashFree names`: no name has a slash in it.
- `slashParts_join`: such names can be joined and parted again.
- `Node.settleWith_slashFree`, `Node.settleLink_slashFree`: settling keeps places without slashes.
- `Disk.slashFree_settled`: a path settles to names without slashes.
-/

namespace WorkspaceAudit

/-- No name has a slash in it. -/
def SlashFree (names : List String) : Prop :=
  ∀ name ∈ names, '/' ∉ name.toList

theorem slashFree_slashParts (s : String) : SlashFree (slashParts s) := by
  intro name hname
  obtain ⟨piece, hpiece, rfl⟩ := List.mem_map.1 hname
  rw [String.toList_ofList]
  exact Text.not_mem_of_mem_splitOn hpiece

theorem slashFree_ofString (s : String) : SlashFree (Path.ofString s).names :=
  fun name hname => slashFree_slashParts s name (List.mem_filter.1 hname).1

namespace SlashFree

variable {names : List String}

theorem append {more : List String} (h : SlashFree names) (h' : SlashFree more) :
    SlashFree (names ++ more) :=
  fun name hname => (List.mem_append.1 hname).elim (h name) (h' name)

theorem name {p : Path} (h : SlashFree p.names) : '/' ∉ p.name.toList := by
  rw [Path.name, List.getLastD_eq_getLast?]
  cases hlast : p.names.getLast? with
  | none => decide
  | some last => exact h last (List.mem_of_getLast? hlast)

theorem dropLast (h : SlashFree names) : SlashFree names.dropLast :=
  fun name hname => h name (List.dropLast_subset names hname)

theorem collapse (h : SlashFree names) : SlashFree (collapse names) := by
  have hfold (done : List String) (hdone : SlashFree done) :
      SlashFree (names.foldl (fun done name =>
      if name == "" || name == "." then done
      else if name == ".." then done.dropLast
      else done ++ [name]) done) := by
    induction names generalizing done with
    | nil => exact hdone
    | cons name rest ih =>
      obtain ⟨hname, hrest⟩ := List.forall_mem_cons.1 h
      refine ih hrest _ ?_
      dsimp only
      split
      · exact hdone
      split
      · exact hdone.dropLast
      · exact hdone.append (List.forall_mem_singleton.2 hname)
  exact hfold [] (by simp [SlashFree])

theorem up {s : Spot} (h : SlashFree s.names) : SlashFree s.up.names := by
  have hdots : SlashFree [".."] := List.forall_mem_singleton.2 (by decide)
  unfold Spot.up
  split
  · exact h.dropLast
  split
  · exact hdots
  split
  · exact h.append hdots
  · exact h.dropLast

theorem down {s : Spot} {name : String} (h : SlashFree s.names) (hname : '/' ∉ name.toList) :
    SlashFree (s.down name).names :=
  h.append (List.forall_mem_singleton.2 hname)

end SlashFree

/-- Names that are joined with slashes are the parts between them. -/
theorem slashParts_join {names : List String} (hne : names ≠ []) (h : SlashFree names) :
    slashParts (Text.join "/" names) = names := by
  unfold slashParts
  induction names with
  | nil => exact absurd rfl hne
  | cons name rest ih =>
    obtain ⟨hslash, hrest⟩ := List.forall_mem_cons.1 h
    cases rest with
    | nil =>
      show (Text.splitOn '/' name.toList).map String.ofList = [name]
      simp [Text.splitOn_of_not_mem hslash]
    | cons second rest =>
      have hjoin : (Text.join "/" (name :: second :: rest)).toList =
          name.toList ++ '/' :: (Text.join "/" (second :: rest)).toList := by
        simp [Text.join]
      rw [hjoin, Text.splitOn_append hslash, List.map_cons, ih (List.cons_ne_nil _ _) hrest,
        String.ofList_toList]

namespace Node

/-- The places that links have been followed to have no slash in their names. -/
def MetSlashFree (met : LinksMet) : Prop :=
  ∀ link there, (link, some there) ∈ met → SlashFree there.names

theorem MetSlashFree.cons {met : LinksMet} {link : Spot} {there? : Option Spot}
    (h : MetSlashFree met) (hthere : ∀ there, there? = some there → SlashFree there.names) :
    MetSlashFree ((link, there?) :: met) := by
  intro link' there hmem
  rcases List.mem_cons.1 hmem with heq | hmem
  · exact hthere there (Prod.mk.inj heq).2.symm
  · exact h link' there hmem

/-- What has been settled, and the links that have been met, are without slashes. -/
def SettlesSlashFree (result : Settled × LinksMet) : Prop :=
  (∀ s, result.1 = .spot s → SlashFree s.names) ∧ MetSlashFree result.2

theorem settleWith_slashFree {find : Spot → Option Node}
    {enter : LinksMet → Spot → String → Settled × LinksMet}
    (henter : ∀ met spot target, MetSlashFree met → SlashFree spot.names →
      SettlesSlashFree (enter met spot target))
    {names : List String} (hnames : SlashFree names) {met : LinksMet} (hmet : MetSlashFree met)
    {spot : Spot} (hspot : SlashFree spot.names) :
    SettlesSlashFree (settleWith find enter met spot names) := by
  induction names generalizing met spot with
  | nil =>
    refine ⟨fun s hs => ?_, hmet⟩
    obtain rfl := Settled.spot.inj hs
    exact hspot
  | cons name rest ih =>
    obtain ⟨hname, hrest⟩ := List.forall_mem_cons.1 hnames
    unfold settleWith
    split
    · exact ih hrest hmet hspot
    split
    · exact ih hrest hmet hspot.up
    split
    · -- A link: it has been settled before, or is being settled, or is entered now.
      rename_i target hlink
      split
      · rename_i there hlookup
        obtain ⟨before, after, rfl, -⟩ := List.lookup_eq_some_iff.1 hlookup
        exact ih hrest hmet (hmet _ _ (List.mem_append_right _ List.mem_cons_self))
      · exact ⟨by rintro s ⟨⟩, hmet⟩
      · have hinner := henter ((spot.down name, none) :: met) spot target
          (hmet.cons (by rintro _ ⟨⟩)) hspot
        split
        · rename_i there met' hentered
          rw [hentered] at hinner
          have hthere := hinner.1 there rfl
          refine ih hrest (hinner.2.cons ?_) hthere
          rintro _ ⟨⟩
          exact hthere
        all_goals
          rename_i hentered
          rw [hentered] at hinner
          exact ⟨by rintro s ⟨⟩, hinner.2⟩
    · exact ih hrest hmet (hspot.down hname)

theorem settleLink_slashFree {find : Spot → Option Node} {limit : Nat} {met : LinksMet}
    (hmet : MetSlashFree met) {spot : Spot} (hspot : SlashFree spot.names) (target : String) :
    SettlesSlashFree (settleLink find limit met spot target) := by
  induction limit generalizing met spot target with
  | zero => exact ⟨by rintro s ⟨⟩, hmet⟩
  | succ limit ih =>
    unfold settleLink
    split
    · refine settleWith_slashFree (fun met spot target hmet hspot => ih hmet hspot target) ?_ hmet
        ?_
      · exact fun name hname => slashFree_slashParts target name (List.mem_of_mem_drop hname)
      · simp [SlashFree]
    · exact settleWith_slashFree (fun met spot target hmet hspot => ih hmet hspot target)
        (slashFree_slashParts target) hmet hspot

end Node

/-- **A path settles to names without slashes**, if the names of the working folder have none. -/
theorem Disk.slashFree_settled {d : Disk} {p q : Path} (hhere : SlashFree d.here)
    (hp : SlashFree p.names) (h : d.settled p = .ok q) : SlashFree q.names := by
  unfold settled at h
  split at h
  · rename_i s hsettle
    obtain rfl := Except.ok.inj h
    have hspot : SlashFree s.names := by
      refine (Node.settleWith_slashFree ?_ hp ?_ ?_).1 s hsettle
      · exact fun met spot target hmet hspot => Node.settleLink_slashFree hmet hspot target
      · rintro _ _ ⟨⟩
      · simp [SlashFree]
    dsimp only
    unfold Spot.absolute
    split
    · exact hspot
    · exact (hhere.append hspot).collapse
  · rename_i text hsettle
    obtain rfl := Except.ok.inj h
    have htext := slashFree_ofString text
    split
    · exact (hhere.append htext).collapse
    · exact htext.collapse
  · cases h

end WorkspaceAudit
