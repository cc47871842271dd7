import WorkspaceAudit.Proofs.Files.Writing

/-!
# Disks that grow

What the program does to a disk puts files where files or nothing were, and folders where nothing
was. A disk grows by that: all that was there stays, as the kind that it was, and paths go on
leading where they led.

- `Node.Grows top other`: whatever is in one tree is in the other, too, and of the same kind.
- `Node.Takes top names node`: the node may be put at the names; the tree grows by it
  (`Node.Takes.grows`).
- `Node.walk_reaches`: where a walk comes to, for whatever aim, a path leads in the grown tree.
- `Disk.locate_of_writeBytes`: a file that has been written is found under its path.
- `Disk.writing_of_locate`, `Disk.folder_of_locate`: a file that is found under a path can be
  written there, and is in a folder.
- `Disk.getLast?_of_locate`: the file that a path leads to has the last name of the path, unless the
  path is a link.
-/

namespace WorkspaceAudit

/-- The names of a place. -/
def Place.names : Place → List String
  | .found names _ => names
  | .free folder name => folder ++ [name]

namespace Node

variable {top other node : Node} {names : List String} {name : String}

/-- Whatever is in one tree is in the other, too, and of the same kind. -/
def Grows (top other : Node) : Prop :=
  ∀ ⦃names node⦄, top.find? names = some node →
    ∃ node', other.find? names = some node' ∧ SameKind node node'

theorem SameKind.trans {a b c : Node} (h : SameKind a b) (h' : SameKind b c) : SameKind a c := by
  cases a <;> cases b <;> cases c <;> simp_all [SameKind]

namespace Grows

theorem refl (top : Node) : Grows top top := fun _ _ h => ⟨_, h, .refl _⟩

theorem trans {third : Node} (h : Grows top other) (h' : Grows other third) : Grows top third := by
  intro names node hnode
  obtain ⟨node', hnode', hsame⟩ := h hnode
  obtain ⟨node'', hnode'', hsame'⟩ := h' hnode'
  exact ⟨node'', hnode'', hsame.trans hsame'⟩

theorem file (h : Grows top other) {bytes : List UInt8}
    (hfile : top.find? names = some (.file bytes)) :
    ∃ bytes', other.find? names = some (.file bytes') := by
  obtain ⟨node, hnode, hsame⟩ := h hfile
  cases node with
  | file bytes' => exact ⟨bytes', hnode⟩
  | _ => cases hsame

theorem folder (h : Grows top other) {entries : List (String × Node)}
    (hfolder : top.find? names = some (.folder entries)) :
    ∃ entries', other.find? names = some (.folder entries') := by
  obtain ⟨node, hnode, hsame⟩ := h hfolder
  cases node with
  | folder entries' => exact ⟨entries', hnode⟩
  | _ => cases hsame

theorem link (h : Grows top other) {target : String}
    (hlink : top.find? names = some (.link target)) : other.find? names = some (.link target) := by
  obtain ⟨node, hnode, hsame⟩ := h hlink
  cases node with
  | link target' =>
    obtain rfl : target = target' := hsame
    exact hnode
  | _ => cases hsame

theorem isLink (h : Grows top other) {here : List String} {target : String}
    (hlink : IsLink top here name target) : IsLink other here name target :=
  ⟨hlink.1, h.link hlink.2⟩

theorem step (h : Grows top other) {here next : List String} (hstep : Step top here name next) :
    Step other here name next := by
  cases hstep with
  | stay hdot => exact .stay hdot
  | up hdots => exact .up hdots
  | @down found hplain hfound hnoLink =>
    obtain ⟨node', hfound', hsame⟩ := h hfound
    refine .down hplain hfound' fun target htarget => ?_
    subst htarget
    cases found with
    | link target => exact hnoLink target rfl
    | _ => cases hsame

theorem straight (h : Grows top other) {here : List String} (hhere : Straight top here) :
    Straight other here := by
  induction hhere with
  | root => exact .root
  | down _ plain found noLink ih => exact (h.step (.down plain found noLink)).straight ih

theorem leads (h : Grows top other) {here todo there : List String} {n : Nat}
    (hleads : Leads top here todo n there) : Leads other here todo n there := by
  induction hleads with
  | done => exact .done
  | step step _ ih => exact .step (h.step step) ih
  | follow link _ ih => exact .follow (h.isLink link) ih

end Grows

/-! ## Trees with one leaf more -/

/-- The node may be put at the names: it is a file and a file is there, or it is a leaf and the last
name is free in a folder. -/
inductive Takes (top : Node) : List String → Node → Prop where
  | file {names : List String} {old : List UInt8} (bytes : List UInt8)
      (found : top.find? names = some (.file old)) : Takes top names (.file bytes)
  | free {folder : List String} {name : String} {entries : List (String × Node)} {node : Node}
      (found : top.find? folder = some (.folder entries)) (unused : entries.lookup name = none)
      (leaf : node.IsLeaf) : Takes top (folder ++ [name]) node

/-- What is found after a node has been put: the node in its place; on the way to it, a folder as
before; elsewhere, what was there. -/
theorem Takes.find?_cases {place : List String} (h : Takes top place node) (names : List String) :
    (names = place ∧ (top.put place node).find? names = some node) ∨
    (∃ es es', top.find? names = some (.folder es) ∧
      (top.put place node).find? names = some (.folder es')) ∨
    (top.put place node).find? names = top.find? names := by
  cases h with
  | file bytes found =>
    rcases find?_put_cases found (.file bytes) names with ⟨rest, rfl, hold, hnew⟩ | hother
    · cases rest with
      | nil => exact .inl ⟨List.append_nil place, hnew⟩
      | cons first rest => exact .inr (.inr (hnew.trans hold.symm))
    · exact .inr hother
  | free found unused leaf =>
    refine find?_put_entry found leaf (fun old hold => ?_) names
    rw [unused] at hold
    cases hold

/-- What was at the names: a file, or nothing. -/
theorem Takes.find?_old {place : List String} (h : Takes top place node) :
    (∃ old bytes, top.find? place = some (.file old) ∧ node = .file bytes) ∨
      top.find? place = none := by
  cases h with
  | file bytes found => exact .inl ⟨_, bytes, found, rfl⟩
  | free found unused leaf =>
    right
    rw [find?_append, found, Option.bind_some, find?_folder_cons, unused]
    rfl

theorem Takes.find?_new {place : List String} (h : Takes top place node) :
    (top.put place node).find? place = some node := by
  cases h with
  | file bytes found => exact find?_put found _
  | free found unused leaf =>
    rw [find?_append, find?_put_folder found, Option.bind_some, find?_folder_cons, lookup_putEntry,
      if_pos rfl]
    rfl

theorem Takes.ne_link {place : List String} (h : Takes top place node) (target : String) :
    node ≠ .link target := by
  rintro rfl
  cases h with
  | free _ _ leaf => simp [IsLeaf, emptyFolder] at leaf

/-- **A tree grows by a node that may be put into it.** -/
theorem Takes.grows {place : List String} (h : Takes top place node) :
    Grows top (top.put place node) := by
  intro names found hfound
  rcases h.find?_cases names with ⟨rfl, hnew⟩ | ⟨es, es', hold, hnew⟩ | hsame
  · rcases h.find?_old with ⟨old, bytes, hfile, rfl⟩ | hnone
    · obtain rfl := Option.some.inj (hfile.symm.trans hfound)
      exact ⟨_, hnew, trivial⟩
    · rw [hnone] at hfound
      cases hfound
  · obtain rfl := Option.some.inj (hold.symm.trans hfound)
    exact ⟨_, hnew, trivial⟩
  · exact ⟨found, hsame.trans hfound, .refl found⟩

/-! ## Walks in a grown tree -/

theorem walkWith_reaches (hgrows : Grows top other) {aim : Aim}
    {jump jump' : List String → List String → Except Fault Place} {node : Node}
    (hlink : ∀ target, node ≠ .link target) {place : Place}
    (hnode : other.find? place.names = some node)
    (hjump : ∀ {here todo}, jump here todo = .ok place →
      jump' here todo = .ok (.found place.names node))
    {todo here : List String} {start start' : Node} (hstart : top.find? here.reverse = some start)
    (hstart' : other.find? here.reverse = some start')
    (h : walkWith top aim jump start here todo = .ok place) :
    walkWith other .target jump' start' here todo = .ok (.found place.names node) := by
  induction todo generalizing here start start' with
  | nil =>
    simp only [walkWith, Except.ok.injEq] at h
    obtain rfl := h
    obtain rfl := Option.some.inj (hstart'.symm.trans hnode)
    rfl
  | cons name rest ih =>
    have hwalks := walkWith_cons hstart h
    obtain ⟨es, rfl⟩ := hwalks.exists_folder
    obtain ⟨es', hes'⟩ := hgrows.folder hstart
    obtain rfl := Option.some.inj (hstart'.symm.trans hes')
    cases hwalks with
    | step short step found walk =>
      obtain ⟨found', hnext', -⟩ := hgrows found
      rw [walkWith_step hstart' (hgrows.step step) hnext' short rfl]
      exact ih found hnext' walk
    | follow short link leap =>
      rw [walkWith_link hstart' (hgrows.isLink link) short rfl]
      simp only [Bool.and_eq_true, beq_iff_eq, reduceCtorEq, and_false, if_false]
      exact hjump leap
    | itself _ link =>
      -- A link that was aimed at itself is still there.
      obtain rfl := Option.some.inj ((hgrows.link link.2).symm.trans hnode)
      exact absurd rfl (hlink _)
    | free last plain short =>
      subst last
      have hfound : other.find? (name :: here).reverse = some node := by
        rw [List.reverse_cons]
        exact hnode
      rw [walkWith_step hstart' (.down plain hfound hlink) hfound (fun _ => short) rfl, walkWith,
        List.reverse_cons]
      rfl

theorem walk_reaches_of_leap (hgrows : Grows top other) {aim : Aim} {links : Nat} {node : Node}
    (hlink : ∀ target, node ≠ .link target) {place : Place}
    (hnode : other.find? place.names = some node)
    (hleap : ∀ {here todo}, leap top aim links here todo = .ok place →
      leap other .target links here todo = .ok (.found place.names node))
    {here todo : List String} (h : walk top aim links here todo = .ok place) :
    walk other .target links here todo = .ok (.found place.names node) := by
  obtain ⟨start, hstart, hwalk⟩ := exists_start_of_walk h
  obtain ⟨start', hstart', -⟩ := hgrows hstart
  rw [walk_of_find? hstart']
  exact walkWith_reaches hgrows hlink hnode hleap hstart hstart' hwalk

/-- **Where a walk comes to, a path leads in the grown tree**, if something that is no link is
there. -/
theorem walk_reaches (hgrows : Grows top other) {aim : Aim} {links : Nat} {node : Node}
    (hlink : ∀ target, node ≠ .link target) {place : Place}
    (hnode : other.find? place.names = some node) {here todo : List String}
    (h : walk top aim links here todo = .ok place) :
    walk other .target links here todo = .ok (.found place.names node) := by
  induction links generalizing here todo with
  | zero => exact walk_reaches_of_leap hgrows hlink hnode (by rintro _ _ ⟨⟩) h
  | succ links ih =>
    refine walk_reaches_of_leap hgrows hlink hnode ?_ h
    exact ih

/-! ## Walks to files -/

section Files

variable {jump jump' : List String → List String → Except Fault Place} {bytes : List UInt8}

/-- A slash at the end is for folders only. -/
theorem walkWith_slash
    (hjump : ∀ {here todo}, jump here (todo ++ [""]) ≠ .ok (.found names (.file bytes)))
    {todo here : List String} {start : Node} (hstart : top.find? here.reverse = some start) :
    walkWith top .target jump start here (todo ++ [""]) ≠ .ok (.found names (.file bytes)) := by
  intro h
  induction todo generalizing here start with
  | nil => cases start <;> simp [walkWith] at h
  | cons name rest ih =>
    rw [List.cons_append] at h
    cases walkWith_cons hstart h with
    | step _ _ found walk => exact ih found walk
    | follow _ _ leap =>
      rw [← List.append_assoc] at leap
      exact hjump leap

theorem walk_slash {links : Nat} {here todo : List String} :
    walk top .target links here (todo ++ [""]) ≠ .ok (.found names (.file bytes)) := by
  intro h
  obtain ⟨start, hstart, hwalk⟩ := exists_start_of_walk h
  refine walkWith_slash (fun {here todo} => ?_) hstart hwalk
  cases links with
  | zero => rintro ⟨⟩
  | succ links => exact walk_slash
  termination_by links

theorem walkWith_writing
    (hslash : ∀ {here todo}, jump here (todo ++ [""]) ≠ .ok (.found names (.file bytes)))
    (hjump : ∀ {here todo}, jump here todo = .ok (.found names (.file bytes)) →
      jump' here todo = .ok (.found names (.file bytes)))
    {todo here : List String} {start : Node} (hstart : top.find? here.reverse = some start)
    (h : walkWith top .target jump start here todo = .ok (.found names (.file bytes))) :
    walkWith top .writing jump' start here todo = .ok (.found names (.file bytes)) := by
  induction todo generalizing here start with
  | nil => exact h
  | cons name rest ih =>
    have hrest : (Aim.writing == .writing && rest == [""]) = false := by
      rw [Bool.and_eq_false_iff, beq_eq_false_iff_ne, beq_eq_false_iff_ne]
      right
      rintro rfl
      have hend : walkWith top .target jump start here ([name] ++ [""]) = _ := h
      exact walkWith_slash hslash hstart hend
    cases walkWith_cons hstart h with
    | step short step found walk =>
      rw [walkWith_step hstart step found short hrest]
      exact ih found walk
    | follow short link leap =>
      rw [walkWith_link hstart link short hrest]
      simp only [Bool.and_eq_true, beq_iff_eq, reduceCtorEq, and_false, if_false]
      exact hjump leap

/-- **A walk for writing comes to a file that is there.** -/
theorem walk_writing {links : Nat} {here todo : List String}
    (h : walk top .target links here todo = .ok (.found names (.file bytes))) :
    walk top .writing links here todo = .ok (.found names (.file bytes)) := by
  obtain ⟨start, hstart, hwalk⟩ := exists_start_of_walk h
  rw [walk_of_find? hstart]
  cases links with
  | zero => exact walkWith_writing (by rintro _ _ ⟨⟩) (by rintro _ _ ⟨⟩) hstart hwalk
  | succ links => exact walkWith_writing walk_slash walk_writing hstart hwalk
  termination_by links

theorem walkWith_front {node : Node}
    (hjump : ∀ {here todo}, jump here (todo ++ [name]) = .ok (.found names node) →
      ∃ folder entries, jump here todo = .ok (.found folder (.folder entries)))
    {todo here : List String} {start : Node} (hstart : top.find? here.reverse = some start)
    (h : walkWith top .target jump start here (todo ++ [name]) = .ok (.found names node)) :
    ∃ folder entries,
      walkWith top .target jump start here todo = .ok (.found folder (.folder entries)) := by
  induction todo generalizing here start with
  | nil =>
    obtain ⟨es, rfl⟩ := (walkWith_cons hstart h).exists_folder
    exact ⟨_, es, rfl⟩
  | cons first rest ih =>
    rw [List.cons_append] at h
    cases walkWith_cons hstart h with
    | step short step found walk =>
      rw [walkWith_step hstart step found short rfl]
      exact ih found walk
    | follow short link leap =>
      rw [walkWith_link hstart link short rfl]
      simp only [Bool.and_eq_true, beq_iff_eq, reduceCtorEq, and_false, if_false]
      rw [← List.append_assoc] at leap
      exact hjump leap
    | itself itself => cases itself

/-- **A walk to anything passes the folder that holds it.** -/
theorem walk_front {node : Node} {links : Nat} {here todo : List String}
    (h : walk top .target links here (todo ++ [name]) = .ok (.found names node)) :
    ∃ folder entries, walk top .target links here todo = .ok (.found folder (.folder entries)) := by
  obtain ⟨start, hstart, hwalk⟩ := exists_start_of_walk h
  rw [walk_of_find? hstart]
  cases links with
  | zero => exact walkWith_front (by rintro _ _ ⟨⟩) hstart hwalk
  | succ links => exact walkWith_front walk_front hstart hwalk
  termination_by links

/-- The folder around a folder is no file. -/
theorem find?_dropLast_ne_file {entries : List (String × Node)}
    (h : top.find? names = some (.folder entries)) :
    top.find? names.dropLast ≠ some (.file bytes) := by
  intro hfile
  rcases List.eq_nil_or_concat names with rfl | ⟨front, last, rfl⟩
  · cases h.symm.trans hfile
  · rw [List.concat_eq_append] at h hfile
    rw [List.dropLast_concat] at hfile
    rw [find?_append, hfile, Option.bind_some, find?_cons] at h
    cases h

/-- **A walk to a file ends with its name**, or comes to a link at its end. -/
theorem walk_last {links : Nat} {here todo : List String}
    (h : walk top .target links here (todo ++ [name]) = .ok (.found names (.file bytes))) :
    names.getLast? = some name ∨ ∃ place target,
      walk top .itself links here (todo ++ [name]) = .ok (.found place (.link target)) := by
  have hname : name ≠ "" := by
    rintro rfl
    exact walk_slash h
  obtain ⟨folder, entries, hfront⟩ := walk_front h
  have hfolder : top.find? folder.reverse.reverse = some (.folder entries) := by
    rw [List.reverse_reverse]
    exact walk_isIn hfront
  -- Whatever the walk is for, it comes to this folder, and the last name is looked up there.
  have hgo (aim : Aim) : ∃ jump, walk top aim links here (todo ++ [name]) =
      walkWith top aim jump (.folder entries) folder.reverse [name] := by
    have hmore : Extends aim [name] := .inr ⟨name, rfl, hname⟩
    rcases walk_continues (Keeps.refl top) hmore hfront with
      ⟨jump, node, hnode, hresult⟩ | ⟨-, hnil, -⟩
    · rw [List.reverse_reverse] at hfolder
      obtain rfl := Option.some.inj (hnode.symm.trans hfolder)
      exact ⟨jump, hresult⟩
    · cases hnil
  obtain ⟨jump, hwalk⟩ := hgo .target
  rw [hwalk] at h
  cases walkWith_cons hfolder h with
  | @step _ next node _ _ step found walk =>
    obtain ⟨rfl, rfl⟩ : next.reverse = names ∧ node = .file bytes := by
      simpa [walkWith] using walk
    cases step with
    | stay => cases hfolder.symm.trans found
    | up =>
      rw [List.tail_reverse, List.reverse_reverse] at found
      rw [List.reverse_reverse] at hfolder
      exact absurd found (find?_dropLast_ne_file hfolder)
    | down =>
      left
      rw [List.reverse_cons, List.getLast?_concat]
  | @follow _ target _ short link =>
    right
    obtain ⟨jump', hitself⟩ := hgo .itself
    refine ⟨(name :: folder.reverse).reverse, target, ?_⟩
    rw [hitself, walkWith_link hfolder link short rfl]
    rfl

end Files

end Node

namespace Disk

open Node

variable {d d' : Disk} {p : Path} {names : List String} {node : Node} {bytes : List UInt8}
  {aim : Aim}

/-! ## Paths on a grown disk -/

/-- **Where a path comes to, it leads on the grown disk.** -/
theorem locate_reaches (hhere : d'.here = d.here) (hgrows : Grows d.top d'.top) {place : Place}
    (h : d.locate p aim = .ok place) (hnode : d'.top.find? place.names = some node)
    (hlink : ∀ target, node ≠ .link target) :
    d'.locate p .target = .ok (.found place.names node) := by
  obtain ⟨hnul, hshort, hwalk⟩ := walk_of_locate h
  have horigin : d'.origin p = d.origin p := by rw [origin, origin, hhere]
  rw [locate_eq_walk hnul hshort, horigin]
  exact walk_reaches hgrows hlink hnode hwalk

/-- The path above a path is not too long if the path is not. -/
theorem text_parent_short (h : p.text.utf8ByteSize < pathLimit) :
    p.parent.text.utf8ByteSize < pathLimit := by
  have hplain : p.parent.plainText.utf8ByteSize ≤ p.plainText.utf8ByteSize := by
    have hnames := Selection.utf8ByteSize_pathText_front p.names.dropLast
      (p.names.drop (p.names.length - 1))
    rw [List.dropLast_eq_take, List.take_append_drop, ← List.dropLast_eq_take] at hnames
    simp only [Path.plainText, Path.parent, String.utf8ByteSize_append]
    exact Nat.add_le_add_left hnames _
  have htext : p.plainText.utf8ByteSize ≤ p.text.utf8ByteSize := by
    unfold Path.text
    split
    · rename_i hempty
      rw [beq_iff_eq.1 hempty]
      decide
    · exact Nat.le_refl _
  rw [Path.text]
  split
  · decide
  · omega

/-- **What is found under a path is in a folder**, which is found under the path above. -/
theorem folder_of_locate (h : d.locate p .target = .ok (.found names node)) (hne : p.names ≠ []) :
    ∃ folder entries, d.locate p.parent .target = .ok (.found folder (.folder entries)) := by
  obtain ⟨hnul, hshort, hwalk⟩ := walk_of_locate h
  have hnames : p.names = p.parent.names ++ [p.names.getLast hne] :=
    (List.dropLast_concat_getLast hne).symm
  have hnul' : hasNul p.parent = false := by
    rw [hasNul, hnames, List.any_append, Bool.or_eq_false_iff] at hnul
    exact hnul.1
  rw [hnames] at hwalk
  obtain ⟨folder, entries, hfront⟩ := walk_front hwalk
  refine ⟨folder, entries, ?_⟩
  rw [locate_eq_walk hnul' (text_parent_short hshort)]
  exact hfront

/-- The path is a link. -/
def IsLinked (d : Disk) (p : Path) : Prop :=
  ∃ names target, d.locate p .itself = .ok (.found names (.link target))

/-- The working folder is a folder. -/
def HasWorkingFolder (d : Disk) : Prop :=
  ∃ entries, d.top.find? d.here = some (.folder entries)

theorem HasWorkingFolder.origin_ne_file (h : d.HasWorkingFolder) (p : Path) :
    d.top.find? (d.origin p).reverse ≠ some (.file bytes) := by
  obtain ⟨entries, hhere⟩ := h
  intro hfile
  unfold origin at hfile
  split at hfile
  · rw [List.reverse_reverse, hhere] at hfile
    cases hfile
  · obtain htop : d.top = .file bytes := Option.some.inj hfile
    rw [htop] at hhere
    cases hnames : d.here with
    | nil => rw [hnames] at hhere; cases hhere
    | cons name rest => rw [hnames, find?_cons] at hhere; cases hhere

/-- **The file that a path leads to has the last name of the path**, unless the path is a link. -/
theorem getLast?_of_locate (hhere : d.HasWorkingFolder)
    (h : d.locate p .target = .ok (.found names (.file bytes))) :
    names.getLast? = some p.name ∨ d.IsLinked p := by
  obtain ⟨hnul, hshort, hwalk⟩ := walk_of_locate h
  rcases List.eq_nil_or_concat p.names with hnames | ⟨front, last, hnames⟩
  · -- Without names, the path leads to where it starts.
    have hfile : d.top.find? names = some (.file bytes) := walk_isIn hwalk
    have hstart : names = (d.origin p).reverse := by
      obtain ⟨start, -, hend⟩ := exists_start_of_walk hwalk
      rw [hnames, walkWith] at hend
      cases hend
      rfl
    rw [hstart] at hfile
    exact absurd hfile (hhere.origin_ne_file p)
  · rw [List.concat_eq_append] at hnames
    have hname : p.name = last := by rw [Path.name, hnames, List.getLastD_concat]
    rw [hnames] at hwalk
    rw [hname]
    rcases walk_last hwalk with hlast | ⟨place, target, hlink⟩
    · exact .inl hlast
    · refine .inr ⟨place, target, ?_⟩
      rw [locate_eq_walk hnul hshort, hnames, hlink]

theorem exists_file_of_readBytes (h : d.readBytes p = .ok bytes) :
    d.isClosed p = false ∧ ∃ names, d.locate p .target = .ok (.found names (.file bytes)) := by
  unfold readBytes at h
  split at h
  · cases h
  rename_i hclosed
  split at h <;> cases h
  exact ⟨Bool.eq_false_iff.2 hclosed, _, ‹_›⟩

/-- **A file that is found under a path can be written there.** -/
theorem writing_of_locate (h : d.locate p .target = .ok (.found names (.file bytes))) :
    d.locate p .writing = .ok (.found names (.file bytes)) := by
  obtain ⟨hnul, hshort, hwalk⟩ := walk_of_locate h
  rw [locate_eq_walk hnul hshort]
  exact walk_writing hwalk

theorem writeBytes_of_file (hclosed : d.isClosed p = false) {old : List UInt8}
    (h : d.locate p .target = .ok (.found names (.file old))) (bytes : List UInt8) :
    d.writeBytes p bytes = .ok { d with top := d.top.put names (.file bytes) } := by
  rw [writeBytes, hclosed, if_neg Bool.false_ne_true, writing_of_locate h]

/-- Whether a file can be written does not depend on its bytes. -/
theorem writeBytes_error {fault : Fault} (h : d.writeBytes p bytes = .error fault)
    (other : List UInt8) : d.writeBytes p other = .error fault := by
  unfold writeBytes at h ⊢
  split
  · rename_i hclosed
    rw [if_pos hclosed] at h
    exact h
  · rename_i hclosed
    rw [if_neg hclosed] at h
    split at h
    · cases h
    · exact h
    · cases h
    · exact h

/-- What a disk becomes when a file is written. -/
theorem exists_place_of_writeBytes (h : d.writeBytes p bytes = .ok d') :
    d.isClosed p = false ∧ ∃ place, d.locate p .writing = .ok place ∧
      Takes d.top place.names (.file bytes) ∧
      d' = { d with top := d.top.put place.names (.file bytes) } := by
  unfold writeBytes at h
  split at h
  · cases h
  rename_i hclosed
  refine ⟨Bool.eq_false_iff.2 hclosed, ?_⟩
  split at h
  · rename_i names old hlocate
    exact ⟨_, hlocate, .file bytes (walk_isIn (walk_of_locate hlocate).2.2),
      (Except.ok.inj h).symm⟩
  · cases h
  · rename_i folder name hlocate
    obtain ⟨entries, hfound, hunused⟩ := walk_isIn (walk_of_locate hlocate).2.2
    exact ⟨_, hlocate, .free hfound hunused (.inl ⟨bytes, rfl⟩), (Except.ok.inj h).symm⟩
  · cases h

/-- **A file that has been written is found under its path.** -/
theorem locate_of_writeBytes (h : d.writeBytes p bytes = .ok d') :
    ∃ names, d'.locate p .target = .ok (.found names (.file bytes)) := by
  obtain ⟨-, place, hlocate, htakes, rfl⟩ := exists_place_of_writeBytes h
  refine ⟨place.names, locate_reaches (d := d) ?_ ?_ hlocate htakes.find?_new (by simp)⟩
  · rfl
  · exact htakes.grows

/-- **What has been written is read.** -/
theorem readBytes_of_writeBytes (h : d.writeBytes p bytes = .ok d') :
    d'.readBytes p = .ok bytes := by
  obtain ⟨names, hlocate⟩ := locate_of_writeBytes h
  obtain ⟨hclosed, _, _, _, rfl⟩ := exists_place_of_writeBytes h
  rw [readBytes, hlocate]
  exact if_neg (Bool.eq_false_iff.1 hclosed)

end Disk

end WorkspaceAudit
