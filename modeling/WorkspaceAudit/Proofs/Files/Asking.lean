import WorkspaceAudit.Proofs.Files.Writing

/-!
# What a walk asks about

A walk along names looks up the places that it comes by, and its end depends on nothing else. So
what is at other places of a disk may change, and the path still leads to the same.

- `Node.bare`: a node without what is in it; `Node.SameAt`: the same is at one place of two trees.
- `Node.Asks`: the places that a walk looks up.
- `Node.walk_of_asks`: walks end alike in trees with the same at all these places.
- `Disk.readBytes_of_asks`, `Disk.exists?_of_asks`: so it is for what is read under a path.
- `Node.asks_straight`, `Node.asks_plain`: where no link is on the way, a walk looks up what is on
  the way only.
-/

namespace WorkspaceAudit

namespace Node

/-- The node itself, without what is in it. -/
def bare : Node → Node
  | .folder _ => emptyFolder
  | node => node

/-- Nodes that are the same without what is in them are of one kind. -/
theorem file_or_link_or_folder {node other : Node} (h : node.bare = other.bare) :
    (∃ bytes, node = .file bytes ∧ other = .file bytes) ∨
    (∃ target, node = .link target ∧ other = .link target) ∨
    ∃ entries others, node = .folder entries ∧ other = .folder others := by
  cases node <;> cases other <;> simp_all [bare, emptyFolder]

theorem map_bare_eq_file {found : Option Node} {bytes : List UInt8} :
    found.map bare = some (.file bytes) ↔ found = some (.file bytes) := by
  rcases found with _ | _ | _ | _ <;> simp [bare, emptyFolder]

theorem map_bare_eq_link {found : Option Node} {target : String} :
    found.map bare = some (.link target) ↔ found = some (.link target) := by
  rcases found with _ | _ | _ | _ <;> simp [bare, emptyFolder]

end Node

/-- The place, without what is in a folder there. -/
def Place.bare : Place → Place
  | .found names node => .found names node.bare
  | .free folder name => .free folder name

/-- Walks that end alike, but for what is in a folder. -/
theorem Place.cases_of_bare {outcome outcome' : Except Fault Place}
    (h : outcome.map Place.bare = outcome'.map Place.bare) :
    (∃ fault, outcome = .error fault ∧ outcome' = .error fault) ∨
    (∃ names node node', outcome = .ok (.found names node) ∧ outcome' = .ok (.found names node') ∧
      node.bare = node'.bare) ∨
    ∃ folder name, outcome = .ok (.free folder name) ∧ outcome' = .ok (.free folder name) := by
  rcases outcome with fault | ⟨names, node⟩ | ⟨folder, name⟩ <;>
    rcases outcome' with fault' | ⟨names', node'⟩ | ⟨folder', name'⟩ <;>
    simp only [Except.map, Place.bare, Except.error.injEq, Except.ok.injEq, Place.found.injEq,
      Place.free.injEq, reduceCtorEq] at h
  · exact .inl ⟨fault, rfl, h ▸ rfl⟩
  · obtain ⟨rfl, hbare⟩ := h
    exact .inr (.inl ⟨names, node, node', rfl, rfl, hbare⟩)
  · obtain ⟨rfl, rfl⟩ := h
    exact .inr (.inr ⟨folder, name, rfl, rfl⟩)

namespace Node

variable {top other : Node} {here todo names x : List String}

/-- The same is at the names in both trees, whatever is in a folder there. -/
def SameAt (top other : Node) (names : List String) : Prop :=
  (top.find? names).map bare = (other.find? names).map bare

/-- From `here`, the walk along the names looks up what is at the place `x`. -/
inductive Asks (top : Node) : List String → List String → List String → Prop where
  | name {here rest : List String} {name : String} (plain : IsPlain name) :
      Asks top here (name :: rest) (name :: here).reverse
  | step {here next rest x : List String} {name : String} (step : Step top here name next)
      (more : Asks top next rest x) : Asks top here (name :: rest) x
  | follow {here rest x : List String} {name target : String}
      (link : IsLink top here name target)
      (more : Asks top (if isRooted target then [] else here) (route target ++ rest) x) :
      Asks top here (name :: rest) x

theorem SameAt.cases (h : SameAt top other names) :
    (top.find? names = none ∧ other.find? names = none) ∨
    ∃ node node', top.find? names = some node ∧ other.find? names = some node' ∧
      node.bare = node'.bare := by
  unfold SameAt at h
  cases hnode : top.find? names with
  | none =>
    rw [hnode, Option.map_none, eq_comm, Option.map_eq_none_iff] at h
    exact .inl ⟨rfl, h⟩
  | some node =>
    rw [hnode, Option.map_some, eq_comm] at h
    obtain ⟨node', hnode', hbare⟩ := Option.map_eq_some_iff.1 h
    exact .inr ⟨node, node', rfl, hnode', hbare.symm⟩

theorem SameAt.file_iff (h : SameAt top other names) {bytes : List UInt8} :
    top.find? names = some (.file bytes) ↔ other.find? names = some (.file bytes) := by
  rw [← map_bare_eq_file, h, map_bare_eq_file]

theorem SameAt.link_iff (h : SameAt top other names) {target : String} :
    top.find? names = some (.link target) ↔ other.find? names = some (.link target) := by
  rw [← map_bare_eq_link, h, map_bare_eq_link]

theorem SameAt.folder (h : SameAt top other names) {entries : List (String × Node)}
    (hfolder : top.find? names = some (.folder entries)) :
    ∃ entries', other.find? names = some (.folder entries') := by
  rcases h.cases with ⟨hnone, -⟩ | ⟨node, node', hnode, hnode', hbare⟩
  · cases hnone.symm.trans hfolder
  obtain rfl := Option.some.inj (hnode.symm.trans hfolder)
  rcases file_or_link_or_folder hbare with ⟨_, hkind, -⟩ | ⟨_, hkind, -⟩ | ⟨_, entries', -, rfl⟩
  · cases hkind
  · cases hkind
  · exact ⟨entries', hnode'⟩

/-- A folder is in a folder, or at the top. -/
theorem find?_tail {entries : List (String × Node)}
    (h : top.find? here.reverse = some (.folder entries)) :
    ∃ entries', top.find? here.tail.reverse = some (.folder entries') := by
  cases here with
  | nil => exact ⟨entries, h⟩
  | cons name above =>
    rw [List.reverse_cons, find?_append] at h
    obtain ⟨node, hnode, hname⟩ := Option.bind_eq_some_iff.1 h
    cases node with
    | folder entries' => exact ⟨entries', hnode⟩
    | _ => cases hname

/-! ## Walks -/

variable {aim : Aim}

theorem walkWith_of_asks (htop : SameAt top other [])
    {jump jump' : List String → List String → Except Fault Place}
    (hjump : ∀ {here todo}, SameAt top other here.reverse →
      (∀ x, Asks top here todo x → SameAt top other x) →
      (jump here todo).map Place.bare = (jump' here todo).map Place.bare)
    {start start' : Node} (hstart : top.find? here.reverse = some start)
    (hstart' : other.find? here.reverse = some start') (hbare : start.bare = start'.bare)
    (hasks : ∀ x, Asks top here todo x → SameAt top other x) :
    (walkWith top aim jump start here todo).map Place.bare =
      (walkWith other aim jump' start' here todo).map Place.bare := by
  induction todo generalizing here start start' with
  | nil => simp only [walkWith, Except.map, Place.bare, hbare]
  | cons name rest ih =>
    rcases file_or_link_or_folder hbare with
      ⟨_, rfl, rfl⟩ | ⟨_, rfl, rfl⟩ | ⟨entries, others, rfl, rfl⟩
    · simp only [walkWith]
    · simp only [walkWith]
    rcases dot_or_dots_or_isPlain name with dot | rfl | plain
    · have hdot : (name == "" || name == ".") = true := by simpa using dot
      rw [walkWith, walkWith, if_pos hdot, if_pos hdot]
      exact ih hstart hstart' hbare fun x hx => hasks x (.step (.stay dot) hx)
    · -- What is above is a folder on both sides, since the walk is in one.
      obtain ⟨up, hup⟩ := find?_tail hstart
      obtain ⟨up', hup'⟩ := find?_tail hstart'
      have hdot : ¬(".." == "" || ".." == ".") = true := by decide
      have hdots : (".." == "..") = true := by decide
      rw [walkWith, walkWith, if_neg hdot, if_neg hdot, if_pos hdots, if_pos hdots, hup, hup']
      exact ih hup hup' rfl fun x hx => hasks x (.step (.up rfl) hx)
    rw [walkWith, walkWith]
    simp only [if_neg plain.not_beq_dot, if_neg plain.not_beq_dots]
    split
    · rfl
    split
    · rfl
    -- The entry of that name is what the walk asks about.
    have hlook := find?_reverse_cons hstart name
    have hlook' := find?_reverse_cons hstart' name
    rcases (hasks _ (.name plain)).cases with
      ⟨hnone, hnone'⟩ | ⟨entry, entry', hsome, hsome', hentry⟩
    · rw [← hlook, ← hlook', hnone, hnone']
    rw [← hlook, ← hlook', hsome, hsome']
    rcases file_or_link_or_folder hentry with ⟨_, rfl, rfl⟩ | ⟨target, rfl, rfl⟩ | ⟨_, _, rfl, rfl⟩
    · refine ih hsome hsome' hentry fun x hx => hasks x (.step (.down plain hsome ?_) hx)
      simp
    · -- A link: the walks end at it, or go on from the same place, the root or this folder.
      dsimp only
      split
      · rfl
      refine hjump ?_ fun x hx => hasks x (.follow ⟨plain, hsome⟩ hx)
      split
      · exact htop
      · rw [SameAt, hstart, hstart', Option.map_some, Option.map_some, hbare]
    · refine ih hsome hsome' hentry fun x hx => hasks x (.step (.down plain hsome ?_) hx)
      simp

/-- **The end of a walk depends on nothing but what it asks about.** -/
theorem walk_of_asks (htop : SameAt top other []) (links : Nat)
    (hhere : SameAt top other here.reverse)
    (hasks : ∀ x, Asks top here todo x → SameAt top other x) :
    (walk top aim links here todo).map Place.bare =
      (walk other aim links here todo).map Place.bare := by
  induction links generalizing here todo with
  | zero =>
    rw [walk, walk]
    rcases hhere.cases with ⟨hnone, hnone'⟩ | ⟨start, start', hstart, hstart', hbare⟩
    · rw [hnone, hnone']
    · rw [hstart, hstart']
      exact walkWith_of_asks htop (fun _ _ => rfl) hstart hstart' hbare hasks
  | succ links ih =>
    rw [walk, walk]
    rcases hhere.cases with ⟨hnone, hnone'⟩ | ⟨start, start', hstart, hstart', hbare⟩
    · rw [hnone, hnone']
    · rw [hstart, hstart']
      exact walkWith_of_asks htop ih hstart hstart' hbare hasks

/-- **Where no link is on the way, a walk asks about what is on the way only.** -/
theorem asks_straight (hplain : ∀ name ∈ names, IsPlain name)
    (hlinks : ∀ front, front <+: names → ∀ target,
      top.find? (here.reverse ++ front) ≠ some (.link target))
    (h : Asks top here names x) : ∃ front, front <+: names ∧ x = here.reverse ++ front := by
  induction names generalizing here with
  | nil => cases h
  | cons name rest ih =>
    have hname := hplain name List.mem_cons_self
    cases h with
    | name => exact ⟨[name], by simp, by simp⟩
    | step step more =>
      cases step with
      | stay dot => exact absurd dot hname.not_dot
      | up dots => exact absurd dots hname.2.2
      | down =>
        have hrest : ∀ front, front <+: rest → ∀ target,
            top.find? ((name :: here).reverse ++ front) ≠ some (.link target) := by
          intro front hfront
          simpa using hlinks (name :: front) ((List.prefix_cons_inj name).2 hfront)
        obtain ⟨front, hfront, rfl⟩ :=
          ih (fun n hn => hplain n (List.mem_cons_of_mem _ hn)) hrest more
        exact ⟨name :: front, (List.prefix_cons_inj name).2 hfront, by simp⟩
    | follow link =>
      have hlink := link.2
      rw [List.reverse_cons] at hlink
      exact absurd hlink (hlinks [name] (by simp) _)

/-- Down in folders, a walk asks about what is on the way only, if there is no link at its end. -/
theorem asks_plain {node : Node} (hplain : ∀ name ∈ names, IsPlain name)
    (hfound : top.find? (here.reverse ++ names) = some node) (hlink : ∀ target, node ≠ .link target)
    (h : Asks top here names x) : ∃ front, front <+: names ∧ x = here.reverse ++ front := by
  refine asks_straight hplain ?_ h
  rintro front ⟨rest, rfl⟩ target hfront
  -- Nothing is below a link, so it would have to be the end.
  rw [← List.append_assoc, find?_append, hfront, Option.bind_some] at hfound
  cases rest with
  | nil => exact hlink target (Option.some.inj hfound).symm
  | cons => cases hfound

end Node

namespace Disk

open Node

variable {d d' : Disk} {p : Path}

/-- The path asks about the place on its way. -/
def Asks (d : Disk) (p : Path) (x : List String) : Prop :=
  Node.Asks d.top (d.origin p) p.names x

/-- **Paths lead to the same place** on disks with the same at all places that they ask about. -/
theorem locate_of_asks (hhere : d'.here = d.here) (htop : SameAt d.top d'.top [])
    (horigin : SameAt d.top d'.top (d.origin p).reverse)
    (hasks : ∀ x, d.Asks p x → SameAt d.top d'.top x) (aim : Aim) :
    (d.locate p aim).map Place.bare = (d'.locate p aim).map Place.bare := by
  unfold Disk.locate
  rw [hhere]
  split
  · rfl
  split
  · rfl
  · exact walk_of_asks htop _ horigin hasks

theorem readBytes_of_asks (hhere : d'.here = d.here) (hclosed : d'.closed = d.closed)
    (htop : SameAt d.top d'.top []) (horigin : SameAt d.top d'.top (d.origin p).reverse)
    (hasks : ∀ x, d.Asks p x → SameAt d.top d'.top x) : d'.readBytes p = d.readBytes p := by
  unfold readBytes isClosed
  rw [hclosed]
  split
  · rfl
  rcases Place.cases_of_bare (locate_of_asks hhere htop horigin hasks .target) with
    ⟨fault, h, h'⟩ | ⟨names, node, node', h, h', hbare⟩ | ⟨folder, name, h, h'⟩
  · rw [h, h']
  · rw [h, h']
    rcases file_or_link_or_folder hbare with ⟨_, rfl, rfl⟩ | ⟨_, rfl, rfl⟩ | ⟨_, _, rfl, rfl⟩ <;>
      rfl
  · rw [h, h']

theorem exists?_of_asks (hhere : d'.here = d.here) (htop : SameAt d.top d'.top [])
    (horigin : SameAt d.top d'.top (d.origin p).reverse)
    (hasks : ∀ x, d.Asks p x → SameAt d.top d'.top x) : d'.exists? p = d.exists? p := by
  unfold exists? node?
  rcases Place.cases_of_bare (locate_of_asks hhere htop horigin hasks .target) with
    ⟨fault, h, h'⟩ | ⟨names, node, node', h, h', -⟩ | ⟨folder, name, h, h'⟩
  · rw [h, h']
  · rw [h, h']
    rfl
  · rw [h, h']

theorem isFolder?_of_asks (hhere : d'.here = d.here) (htop : SameAt d.top d'.top [])
    (horigin : SameAt d.top d'.top (d.origin p).reverse)
    (hasks : ∀ x, d.Asks p x → SameAt d.top d'.top x) : d'.isFolder? p = d.isFolder? p := by
  unfold isFolder? node?
  rcases Place.cases_of_bare (locate_of_asks hhere htop horigin hasks .target) with
    ⟨fault, h, h'⟩ | ⟨names, node, node', h, h', hbare⟩ | ⟨folder, name, h, h'⟩
  · rw [h, h']
  · rw [h, h']
    rcases file_or_link_or_folder hbare with ⟨_, rfl, rfl⟩ | ⟨_, rfl, rfl⟩ | ⟨_, _, rfl, rfl⟩ <;>
      rfl
  · rw [h, h']

end Disk

end WorkspaceAudit
