import WorkspaceAudit.Proofs.Files.Collecting

/-!
# Writing files into a folder and taking them out

- `Node.find?_put_entry`: what is found at any row of names after a leaf has been put into a folder.
- `Node.walk_isIn`: walks tell what is there.
- `Node.Keeps top other`: whatever folder or link is in one tree is in the other, too;
  `Node.walk_continues`: walks to folders go the same way in both.
- `Disk.Accepts`: exactly when a file can be written under a name of a folder
  (`writeBytes_of_accepts`, `writeBytes_of_not_accepts`); what the disk is then (`locate_withFile`,
  `file_withFile_iff`).
- `Disk.locate_withEntries`, `Disk.readBytes_withEntries`: what a folder and its files are after
  other files have been taken out of it.
- `Disk.sameFiles_makeFoldersAt`: making folders leaves all files as they are.
-/

namespace WorkspaceAudit

/-- The place is as it is told: the node is there, or the name is free in a folder. -/
def Place.IsIn (top : Node) : Place → Prop
  | .found names node => top.find? names = some node
  | .free folder name => ∃ entries, top.find? folder = some (.folder entries) ∧
      entries.lookup name = none

namespace Node

variable {top node c d : Node} {entries : List (String × Node)} {name : String}
  {folder names : List String}

/-! ## Entries and places -/

theorem lookup_putEntry (name other : String) (node : Node) (entries : List (String × Node)) :
    (putEntry name node entries).lookup other =
      if other = name then some node else entries.lookup other := by
  induction entries with
  | nil =>
    by_cases h : other = name
    · simp [putEntry, h]
    · simp [putEntry, List.lookup_cons, beq_false_of_ne h, h]
  | cons entry entries ih =>
    obtain ⟨first, old⟩ := entry
    by_cases hfirst : first = name
    · subst hfirst
      by_cases h : other = first
      · simp [putEntry, h]
      · simp [putEntry, List.lookup_cons, beq_false_of_ne h, h]
    · rw [putEntry, if_neg (by simpa using hfirst)]
      by_cases h : other = first
      · subst h
        simp [hfirst]
      · simp [List.lookup_cons, beq_false_of_ne h, ih]

theorem find?_cons (n : Node) (name : String) (rest : List String) :
    n.find? (name :: rest) = (n.child? name).bind (·.find? rest) := by
  rw [find?]
  cases n.child? name <;> rfl

/-- A node that is put where another one is takes its place. -/
theorem put_append (h : top.find? folder = some c) (names : List String) (node : Node) :
    top.put (folder ++ names) node = top.put folder (c.put names node) := by
  induction folder generalizing top with
  | nil =>
    obtain rfl := Option.some.inj h
    rfl
  | cons name folder ih =>
    rw [find?_cons] at h
    obtain ⟨child, hchild, hfound⟩ := Option.bind_eq_some_iff.1 h
    cases top with
    | folder entries =>
      have hlookup : entries.lookup name = some child := hchild
      simp only [List.cons_append, put, hlookup, Option.getD_some, ih hfound]
    | _ => cases hchild

/-- What is found after a node has taken the place of another one: at and below that place, what is
in the node; on the way to it, a folder as before; elsewhere, what was there. -/
theorem find?_put_cases (h : top.find? folder = some c) (d : Node) (names : List String) :
    (∃ rest, names = folder ++ rest ∧ top.find? names = c.find? rest ∧
      (top.put folder d).find? names = d.find? rest) ∨
    (∃ es es', top.find? names = some (.folder es) ∧
      (top.put folder d).find? names = some (.folder es')) ∨
    (top.put folder d).find? names = top.find? names := by
  induction folder generalizing top names with
  | nil =>
    obtain rfl := Option.some.inj h
    exact .inl ⟨names, rfl, rfl, rfl⟩
  | cons name folder ih =>
    rw [find?_cons] at h
    obtain ⟨child, hchild, hfound⟩ := Option.bind_eq_some_iff.1 h
    cases top with
    | folder entries =>
      have hlookup : entries.lookup name = some child := hchild
      have hput : (Node.folder entries).put (name :: folder) d =
          .folder (putEntry name (child.put folder d) entries) := by
        simp only [put, hlookup, Option.getD_some]
      rw [hput]
      cases names with
      | nil => exact .inr (.inl ⟨_, _, rfl, rfl⟩)
      | cons first names =>
        by_cases hfirst : first = name
        · subst hfirst
          have hold : (Node.folder entries).find? (first :: names) = child.find? names := by
            rw [find?_cons, hchild, Option.bind_some]
          have hnew : (Node.folder (putEntry first (child.put folder d) entries)).find?
              (first :: names) = (child.put folder d).find? names := by
            rw [find?_cons]
            simp [child?, lookup_putEntry]
          rw [hold, hnew]
          rcases ih hfound names with ⟨rest, rfl, hrest⟩ | hother
          · exact .inl ⟨rest, rfl, hrest⟩
          · exact .inr hother
        · refine .inr (.inr ?_)
          simp only [find?_cons, child?, lookup_putEntry, if_neg hfirst]
    | _ => cases hchild

/-- The kinds of two nodes are the same, and so are the targets of links. -/
def SameKind : Node → Node → Prop
  | .file _, .file _ => True
  | .link target, .link other => target = other
  | .folder _, .folder _ => True
  | _, _ => False

theorem SameKind.refl (n : Node) : SameKind n n := by
  cases n <;> simp [SameKind]

/-- Whatever folder or link is in one tree is in the other, too. Files may come and go. -/
def Keeps (top other : Node) : Prop :=
  ∀ ⦃names node⦄, top.find? names = some node → (∀ bytes, node ≠ .file bytes) →
    ∃ node', other.find? names = some node' ∧ SameKind node node'

/-- The node is a leaf: a file or a folder without entries. -/
def IsLeaf (n : Node) : Prop := (∃ bytes, n = .file bytes) ∨ n = .emptyFolder

theorem IsLeaf.find?_cons (h : node.IsLeaf) (name : String) (rest : List String) :
    node.find? (name :: rest) = none := by
  rcases h with ⟨bytes, rfl⟩ | rfl <;> rfl

/-- What is found once a leaf is under a name in a folder, in the place of a leaf or of nothing. -/
theorem find?_put_entry (h : top.find? folder = some (.folder entries)) (hnode : node.IsLeaf)
    (hold : ∀ old, entries.lookup name = some old → old.IsLeaf) (names : List String) :
    (names = folder ++ [name] ∧ (top.put (folder ++ [name]) node).find? names = some node) ∨
    (∃ es es', top.find? names = some (.folder es) ∧
      (top.put (folder ++ [name]) node).find? names = some (.folder es')) ∨
    (top.put (folder ++ [name]) node).find? names = top.find? names := by
  have hput : (Node.folder entries).put [name] node = .folder (putEntry name node entries) := rfl
  rw [put_append h, hput]
  rcases find?_put_cases h (.folder (putEntry name node entries)) names with
    ⟨rest, rfl, htop, hother⟩ | hother
  · rw [htop, hother]
    cases rest with
    | nil => exact .inr (.inl ⟨_, _, rfl, rfl⟩)
    | cons first rest =>
      by_cases hfirst : first = name
      · subst hfirst
        cases rest with
        | nil => exact .inl ⟨rfl, by simp [child?, lookup_putEntry, find?]⟩
        | cons second rest =>
          -- Below the entry there is nothing, now or before.
          refine .inr (.inr ?_)
          have hnew : (Node.folder (putEntry first node entries)).find? (first :: second :: rest) =
              none := by
            rw [Node.find?_cons]
            simp [child?, lookup_putEntry, hnode.find?_cons]
          rw [hnew, Node.find?_cons, child?]
          cases hlookup : entries.lookup first with
          | none => rfl
          | some old => exact ((hold old hlookup).find?_cons second rest).symm
      · refine .inr (.inr ?_)
        simp only [Node.find?_cons, child?, lookup_putEntry, if_neg hfirst]
  · exact .inr hother

/-- A node is found where it has been put in the place of another one. -/
theorem find?_put (h : top.find? folder = some c) (d : Node) :
    (top.put folder d).find? folder = some d := by
  induction folder generalizing top with
  | nil => rfl
  | cons first folder ih =>
    rw [Node.find?_cons] at h
    obtain ⟨child, hchild, hfound⟩ := Option.bind_eq_some_iff.1 h
    cases top with
    | folder es =>
      have hlookup : es.lookup first = some child := hchild
      simp only [put, hlookup, Option.getD_some, Node.find?_cons, child?, lookup_putEntry, if_true,
        Option.bind_some]
      exact ih hfound
    | _ => cases hchild

/-- The folder itself has the node among its entries. -/
theorem find?_put_folder (h : top.find? folder = some (.folder entries)) :
    (top.put (folder ++ [name]) node).find? folder =
      some (.folder (putEntry name node entries)) := by
  have hput : (Node.folder entries).put [name] node = .folder (putEntry name node entries) := rfl
  rw [put_append h, hput, find?_put h]

/-- A tree keeps what it has if a leaf comes where nothing is, or a file where one is. -/
theorem keeps_put (h : top.find? folder = some (.folder entries)) (hnode : node.IsLeaf)
    (hold : ∀ old, entries.lookup name = some old → old.IsLeaf ∧ old.SameKind node) :
    Keeps top (top.put (folder ++ [name]) node) := by
  intro names found hfound _
  rcases find?_put_entry h hnode (fun old ho => (hold old ho).1) names with
    ⟨rfl, hnew⟩ | ⟨es, es', hes, hes'⟩ | hsame
  · refine ⟨node, hnew, ?_⟩
    rw [find?_append, h, Option.bind_some, Node.find?_cons, child?] at hfound
    cases hlookup : entries.lookup name with
    | none => simp [hlookup] at hfound
    | some old =>
      obtain rfl : old = found := by simpa [hlookup, find?] using hfound
      exact (hold old hlookup).2
  · rw [hes] at hfound
    obtain rfl := Option.some.inj hfound
    exact ⟨_, hes', trivial⟩
  · exact ⟨found, hsame.trans hfound, .refl found⟩

theorem lookup_filter (keep : String → Bool) (entries : List (String × Node)) (name : String) :
    (entries.filter fun entry => keep entry.1).lookup name =
      if keep name then entries.lookup name else none := by
  induction entries with
  | nil => simp
  | cons entry entries ih =>
    obtain ⟨first, old⟩ := entry
    by_cases hname : name = first
    · subst hname
      cases hkeep : keep name <;> simp [hkeep, ih]
    · cases hkeep : keep first <;>
        simp [hkeep, List.lookup_cons, beq_false_of_ne hname, ih]

/-- A tree keeps folders and links if files of a folder are taken away. -/
theorem keeps_put_filter (h : top.find? folder = some (.folder entries)) {keep : String → Bool}
    (hfiles : ∀ name node, entries.lookup name = some node → keep name = false →
      ∃ bytes, node = .file bytes) :
    Keeps top (top.put folder (.folder (entries.filter fun entry => keep entry.1))) := by
  intro names found hfound hnode
  rcases find?_put_cases h (.folder (entries.filter fun entry => keep entry.1)) names with
    ⟨rest, rfl, htop, hother⟩ | ⟨es, es', hes, hes'⟩ | hsame
  · rw [htop] at hfound
    cases rest with
    | nil =>
      obtain rfl := Option.some.inj hfound
      exact ⟨_, hother, trivial⟩
    | cons first rest =>
      refine ⟨found, ?_, .refl found⟩
      rw [hother, ← hfound, Node.find?_cons, Node.find?_cons, child?, child?, lookup_filter]
      cases hkeep : keep first with
      | true => rfl
      | false =>
        -- What is taken away is a file, so that nothing but the file itself was found there.
        rw [Node.find?_cons, child?] at hfound
        obtain ⟨old, hlookup, hold⟩ := Option.bind_eq_some_iff.1 hfound
        obtain ⟨bytes, rfl⟩ := hfiles first old hlookup hkeep
        cases rest with
        | nil => exact absurd (Option.some.inj hold).symm (hnode bytes)
        | cons second rest => cases hold
  · rw [hes] at hfound
    obtain rfl := Option.some.inj hfound
    exact ⟨_, hes', trivial⟩
  · exact ⟨found, hsame.trans hfound, .refl found⟩

theorem Keeps.refl (top : Node) : Keeps top top := fun _ _ h _ => ⟨_, h, .refl _⟩

/-! ## Walks -/

/-- What the system does at a link if it may follow so many on the way. -/
def leap (top : Node) (aim : Aim) : Nat → List String → List String → Except Fault Place
  | 0, _, _ => .error .tooManyLinks
  | links + 1, here, todo => walk top aim links here todo

theorem walk_of_find? {aim : Aim} {links : Nat} {here todo : List String}
    (h : top.find? here.reverse = some node) :
    walk top aim links here todo = walkWith top aim (leap top aim links) node here todo := by
  cases links <;> simp only [walk, h] <;> rfl

/-- A walk that comes to an end starts at a node. -/
theorem exists_start_of_walk {aim : Aim} {links : Nat} {here todo : List String} {place : Place}
    (h : walk top aim links here todo = .ok place) :
    ∃ start, top.find? here.reverse = some start ∧
      walkWith top aim (leap top aim links) start here todo = .ok place := by
  cases hstart : top.find? here.reverse with
  | none => cases links <;> simp only [walk, hstart] at h <;> cases h
  | some start =>
    rw [walk_of_find? hstart] at h
    exact ⟨start, rfl, h⟩

theorem walkWith_isIn {aim : Aim} {jump : List String → List String → Except Fault Place}
    (hjump : ∀ {here todo place}, jump here todo = .ok place → place.IsIn top)
    {todo here : List String} {start : Node} {place : Place}
    (hstart : top.find? here.reverse = some start)
    (h : walkWith top aim jump start here todo = .ok place) : place.IsIn top := by
  induction todo generalizing here start with
  | nil =>
    simp only [walkWith, Except.ok.injEq] at h
    obtain rfl := h
    exact hstart
  | cons name rest ih =>
    cases walkWith_cons hstart h with
    | step _ _ found more => exact ih found more
    | follow _ _ more => exact hjump more
    | itself _ link => exact link.2
    | free _ _ _ unused => exact ⟨_, hstart, unused⟩

theorem walk_isIn_of_leap {aim : Aim} {links : Nat}
    (hleap : ∀ {here todo place}, leap top aim links here todo = .ok place → place.IsIn top)
    {here todo : List String} {place : Place} (h : walk top aim links here todo = .ok place) :
    place.IsIn top := by
  obtain ⟨start, hstart, hwalk⟩ := exists_start_of_walk h
  exact walkWith_isIn hleap hstart hwalk

/-- **Walks tell what is there.** -/
theorem walk_isIn {aim : Aim} {links : Nat} {here todo : List String} {place : Place}
    (h : walk top aim links here todo = .ok place) : place.IsIn top := by
  induction links generalizing here todo place with
  | zero => exact walk_isIn_of_leap (by rintro _ _ _ ⟨⟩) h
  | succ links ih =>
    refine walk_isIn_of_leap ?_ h
    exact ih

/-- What a walk that ends at a folder becomes in a tree that keeps folders and links, for another
aim and with more names to go: it goes on from the same place, or ends at a link that is aimed
at. -/
def Continues (other : Node) (aim : Aim) (folder more : List String)
    (result : Except Fault Place) : Prop :=
  (∃ jump node, other.find? folder = some node ∧
    result = walkWith other aim jump node folder.reverse more) ∨
  (aim = .itself ∧ more = [] ∧ ∃ names link, result = .ok (.found names link))

/-- The names that may come after those of a walk: none if a file is to be written, unless they end
in a name. -/
def Extends (aim : Aim) (more : List String) : Prop :=
  (more = [] ∧ aim ≠ .writing) ∨ ∃ last, more.getLast? = some last ∧ last ≠ ""

theorem Extends.not_slash {aim : Aim} {more : List String} (h : Extends aim more)
    (rest : List String) : (aim == .writing && rest ++ more == [""]) = false := by
  rcases h with ⟨-, haim⟩ | ⟨last, hlast, hne⟩
  · simp [haim]
  · have hneq : rest ++ more ≠ [""] := by
      intro heq
      have hgetLast := congrArg List.getLast? heq
      rw [List.getLast?_append, hlast] at hgetLast
      exact hne (Option.some.inj hgetLast)
    simp [hneq]

/-- A step of a walk. -/
theorem walkWith_step {aim : Aim} {jump : List String → List String → Except Fault Place}
    {here next rest : List String} (hstart : top.find? here.reverse = some (.folder entries))
    (hstep : Step top here name next) (hnext : top.find? next.reverse = some node)
    (hshort : IsPlain name → name.utf8ByteSize ≤ longestName)
    (hslash : (aim == .writing && rest == [""]) = false) :
    walkWith top aim jump (.folder entries) here (name :: rest) =
      walkWith top aim jump node next rest := by
  cases hstep with
  | stay hdot =>
    obtain rfl := Option.some.inj (hstart.symm.trans hnext)
    simp [walkWith, hdot]
  | up hdots =>
    subst hdots
    simp [walkWith, hnext]
  | down hplain hfound hnoLink =>
    obtain rfl := Option.some.inj (hfound.symm.trans hnext)
    rw [find?_reverse_cons hstart] at hfound
    obtain ⟨hempty, hdot, hdots⟩ := hplain
    simp only [walkWith, hempty, hdot, hdots, hslash, Nat.not_lt.2 (hshort ⟨hempty, hdot, hdots⟩),
      hfound, beq_iff_eq, or_self, Bool.or_eq_true, Bool.false_eq_true, if_false]

/-- A walk that comes to a link. -/
theorem walkWith_link {aim : Aim} {jump : List String → List String → Except Fault Place}
    {here rest : List String} {target : String}
    (hstart : top.find? here.reverse = some (.folder entries))
    (hlink : IsLink top here name target) (hshort : name.utf8ByteSize ≤ longestName)
    (hslash : (aim == .writing && rest == [""]) = false) :
    walkWith top aim jump (.folder entries) here (name :: rest) =
      if rest.isEmpty && aim == .itself then .ok (.found (name :: here).reverse (.link target))
      else jump (if isRooted target then [] else here) (route target ++ rest) := by
  obtain ⟨⟨hempty, hdot, hdots⟩, hfound⟩ := hlink
  rw [find?_reverse_cons hstart] at hfound
  simp only [walkWith, hempty, hdot, hdots, hslash, Nat.not_lt.2 hshort, hfound, beq_iff_eq,
    or_self, Bool.or_eq_true, Bool.false_eq_true, if_false]

theorem Keeps.isLink {other : Node} (h : Keeps top other) {here : List String} {target : String}
    (hlink : IsLink top here name target) : IsLink other here name target := by
  obtain ⟨link, hlink', hsame⟩ := h hlink.2 (by simp)
  obtain rfl : link = .link target := by
    cases link <;> simp_all [SameKind]
  exact ⟨hlink.1, hlink'⟩

theorem Keeps.step {other : Node} (h : Keeps top other) {here next : List String}
    (hstep : Step top here name next) (hnext : top.find? next.reverse = some node)
    (hnode : ∀ bytes, node ≠ .file bytes) : Step other here name next := by
  cases hstep with
  | stay hdot => exact .stay hdot
  | up hdots => exact .up hdots
  | @down found hplain hfound hnoLink =>
    obtain rfl := Option.some.inj (hnext.symm.trans hfound)
    obtain ⟨node', hfound', hsame⟩ := h hfound hnode
    refine .down hplain hfound' fun target htarget => ?_
    subst htarget
    cases node with
    | link target => exact hnoLink target rfl
    | _ => cases hsame

/-- A walk to a folder does not pass a file. -/
theorem ne_file_of_walkWith {aim : Aim} {jump : List String → List String → Except Fault Place}
    {here todo : List String} {start : Node}
    (h : walkWith top aim jump start here todo = .ok (.found folder (.folder entries))) :
    ∀ bytes, start ≠ .file bytes := by
  rintro bytes rfl
  cases todo <;> simp [walkWith] at h

theorem walkWith_continues {other : Node} (hkeeps : Keeps top other) {aim : Aim}
    {more : List String} (hmore : Extends aim more)
    {jump jump' : List String → List String → Except Fault Place}
    (hjump : ∀ {here todo folder entries}, jump here todo = .ok (.found folder (.folder entries)) →
      Continues other aim folder more (jump' here (todo ++ more)))
    {todo here : List String} {start start' : Node} (hstart : top.find? here.reverse = some start)
    (hstart' : other.find? here.reverse = some start')
    (h : walkWith top .target jump start here todo = .ok (.found folder (.folder entries))) :
    Continues other aim folder more (walkWith other aim jump' start' here (todo ++ more)) := by
  induction todo generalizing here start start' with
  | nil =>
    simp only [walkWith, Except.ok.injEq, Place.found.injEq] at h
    obtain ⟨rfl, rfl⟩ := h
    exact .inl ⟨jump', start', hstart', by simp⟩
  | cons name rest ih =>
    have hwalks := walkWith_cons hstart h
    obtain ⟨es, rfl⟩ := hwalks.exists_folder
    obtain ⟨es', rfl⟩ : ∃ es', start' = .folder es' := by
      obtain ⟨kept, hkept, hsame⟩ := hkeeps hstart (by simp)
      obtain rfl := Option.some.inj (hstart'.symm.trans hkept)
      cases start' with
      | folder es' => exact ⟨es', rfl⟩
      | _ => cases hsame
    have hslash := hmore.not_slash rest
    rw [List.cons_append]
    cases hwalks with
    | step short step found walk =>
      have hnode := ne_file_of_walkWith walk
      obtain ⟨node', hnext', -⟩ := hkeeps found hnode
      rw [walkWith_step hstart' (hkeeps.step step found hnode) hnext' short hslash]
      exact ih found hnext' walk
    | follow short link leap =>
      rw [walkWith_link hstart' (hkeeps.isLink link) short hslash]
      -- The link is met in the same way unless it is now the end, and the aim is the link itself.
      by_cases hend : ((rest ++ more).isEmpty && aim == .itself) = true
      · obtain ⟨hempty, haim⟩ := Bool.and_eq_true_iff.1 hend
        have hnone := (List.append_eq_nil_iff.1 (List.isEmpty_iff.1 hempty)).2
        rw [if_pos hend]
        exact .inr ⟨beq_iff_eq.1 haim, hnone, _, _, rfl⟩
      · rw [if_neg hend, ← List.append_assoc]
        exact hjump leap

theorem walk_continues_of_leap {other : Node} (hkeeps : Keeps top other) {aim : Aim}
    {more : List String} (hmore : Extends aim more) {links : Nat}
    (hleap : ∀ {here todo folder entries}, leap top .target links here todo =
      .ok (.found folder (.folder entries)) →
        Continues other aim folder more (leap other aim links here (todo ++ more)))
    {here todo : List String}
    (h : walk top .target links here todo = .ok (.found folder (.folder entries))) :
    Continues other aim folder more (walk other aim links here (todo ++ more)) := by
  obtain ⟨start, hstart, hwalk⟩ := exists_start_of_walk h
  obtain ⟨start', hstart', -⟩ := hkeeps hstart (ne_file_of_walkWith hwalk)
  rw [walk_of_find? hstart']
  refine walkWith_continues hkeeps hmore ?_ hstart hstart' hwalk
  exact hleap

/-- **A walk to a folder goes the same way** in a tree that keeps folders and links, for another aim
and with more names to go. -/
theorem walk_continues {other : Node} (hkeeps : Keeps top other) {aim : Aim}
    {more : List String} (hmore : Extends aim more) {links : Nat} {here todo : List String}
    (h : walk top .target links here todo = .ok (.found folder (.folder entries))) :
    Continues other aim folder more (walk other aim links here (todo ++ more)) := by
  induction links generalizing here todo folder entries with
  | zero => exact walk_continues_of_leap hkeeps hmore (by rintro _ _ _ _ ⟨⟩) h
  | succ links ih =>
    refine walk_continues_of_leap hkeeps hmore ?_ h
    exact ih

end Node

namespace Disk

open Node

variable {d : Disk} {p : Path} {F : List String} {entries : List (String × Node)} {name : String}
  {aim : Aim}

/-! ## Paths -/

theorem locate_eq_walk (hnul : hasNul p = false) (hshort : p.text.utf8ByteSize < pathLimit) :
    d.locate p aim = d.top.walk aim linkLimit (d.origin p) p.names := by
  rw [locate, hnul, if_neg Bool.false_ne_true, if_neg (by simpa [isTooLong] using hshort)]
  rfl

theorem walk_of_locate {place : Place} (h : d.locate p aim = .ok place) :
    hasNul p = false ∧ p.text.utf8ByteSize < pathLimit ∧
      d.top.walk aim linkLimit (d.origin p) p.names = .ok place := by
  unfold locate at h
  split at h
  · cases h
  split at h
  · cases h
  · rename_i hnul hshort
    exact ⟨Bool.eq_false_iff.2 hnul, by simpa [isTooLong] using hshort, h⟩

theorem entries_eq_ok_iff {es : List (String × Node)} : d.entries p = .ok es ↔
    ∃ names, d.locate p .target = .ok (.found names (.folder es)) := by
  unfold Disk.entries
  constructor
  · intro h
    split at h
    · rename_i names _ heq
      obtain rfl := Except.ok.inj h
      exact ⟨names, heq⟩
    all_goals cases h
  · rintro ⟨names, h⟩
    simp only [h]

theorem hasNul_entry (h : hasNul p = false) (hname : IsEntryName name) :
    hasNul (p.extend [name]) = false :=
  hasNul_extend h (List.forall_mem_singleton.2 hname)

/-- The name is no longer than the system allows, and neither is the path with it. -/
def Allows (p : Path) (name : String) : Prop :=
  (p.extend [name]).text.utf8ByteSize < pathLimit ∧ name.utf8ByteSize ≤ longestName

instance (p : Path) (name : String) : Decidable (Allows p name) :=
  inferInstanceAs (Decidable (_ ∧ _))

/-- The path of a name in a folder goes on from that folder. -/
theorem exists_locate_extend (h : d.locate p .target = .ok (.found F (.folder entries)))
    (hname : IsEntryName name) (hlength : (p.extend [name]).text.utf8ByteSize < pathLimit)
    (aim : Aim) :
    ∃ jump, d.locate (p.extend [name]) aim =
      walkWith d.top aim jump (.folder entries) F.reverse [name] := by
  obtain ⟨hnul, -, hwalk⟩ := walk_of_locate h
  have hfound : d.top.find? F = some (.folder entries) := walk_isIn hwalk
  have hmore : Extends aim [name] := .inr ⟨name, rfl, hname.1.1⟩
  rw [locate_eq_walk (hasNul_entry hnul hname) hlength]
  rcases walk_continues (Keeps.refl d.top) hmore hwalk with
    ⟨jump, node, hnode, hresult⟩ | ⟨-, hnil, -⟩
  · obtain rfl : node = .folder entries := Option.some.inj (hnode.symm.trans hfound)
    exact ⟨jump, hresult⟩
  · cases hnil

theorem locate_extend_free (h : d.locate p .target = .ok (.found F (.folder entries)))
    (hname : IsEntryName name) (hallows : Allows p name) (hlookup : entries.lookup name = none) :
    d.locate (p.extend [name]) aim = .ok (.free F name) := by
  obtain ⟨jump, hlocate⟩ := exists_locate_extend h hname hallows.1 aim
  obtain ⟨hempty, hdot, hdots⟩ := hname.1
  rw [hlocate]
  simp [walkWith, hempty, hdot, hdots, Nat.not_lt.2 hallows.2, hlookup]

theorem locate_extend_found {node : Node}
    (h : d.locate p .target = .ok (.found F (.folder entries))) (hname : IsEntryName name)
    (hallows : Allows p name) (hlookup : entries.lookup name = some node)
    (hnode : ∀ target, node ≠ .link target) :
    d.locate (p.extend [name]) aim = .ok (.found (F ++ [name]) node) := by
  obtain ⟨jump, hlocate⟩ := exists_locate_extend h hname hallows.1 aim
  obtain ⟨hempty, hdot, hdots⟩ := hname.1
  rw [hlocate]
  cases node with
  | link target => exact absurd rfl (hnode target)
  | _ => simp [walkWith, hempty, hdot, hdots, Nat.not_lt.2 hallows.2, hlookup]

theorem locate_extend_long (h : d.locate p .target = .ok (.found F (.folder entries)))
    (hname : IsEntryName name) (hlong : ¬Allows p name) :
    d.locate (p.extend [name]) aim = .error .nameTooLong := by
  by_cases hlength : (p.extend [name]).text.utf8ByteSize < pathLimit
  · obtain ⟨jump, hlocate⟩ := exists_locate_extend h hname hlength aim
    obtain ⟨hempty, hdot, hdots⟩ := hname.1
    have hbytes : longestName < name.utf8ByteSize :=
      Nat.not_le.1 fun hbytes => hlong ⟨hlength, hbytes⟩
    rw [hlocate]
    simp [walkWith, hempty, hdot, hdots, hbytes]
  · rw [locate, hasNul_entry (walk_of_locate h).1 hname, if_neg Bool.false_ne_true,
      if_pos (by simpa [isTooLong] using hlength)]

/-! ## Files of a folder -/

/-- A file can be written under the name: the path is not closed and not too long, and no folder is
in the way. -/
def Accepts (d : Disk) (p : Path) (entries : List (String × Node)) (name : String) : Prop :=
  d.isClosed (p.extend [name]) = false ∧ Allows p name ∧
    (entries.lookup name).any Node.isFolder = false

instance (d : Disk) (p : Path) (entries : List (String × Node)) (name : String) :
    Decidable (d.Accepts p entries name) :=
  inferInstanceAs (Decidable (_ ∧ _ ∧ _))

/-- The disk with a file in a folder. -/
def withFile (d : Disk) (F : List String) (name : String) (bytes : List UInt8) : Disk :=
  { d with top := d.top.put (F ++ [name]) (.file bytes) }

theorem writeBytes_of_accepts (h : d.locate p .target = .ok (.found F (.folder entries)))
    (hname : IsEntryName name) (hlink : ∀ target, entries.lookup name ≠ some (.link target))
    (haccepts : d.Accepts p entries name) (bytes : List UInt8) :
    d.writeBytes (p.extend [name]) bytes = .ok (d.withFile F name bytes) := by
  obtain ⟨hclosed, hallows, hfolder⟩ := haccepts
  rw [writeBytes, hclosed, if_neg Bool.false_ne_true]
  cases hlookup : entries.lookup name with
  | none =>
    rw [locate_extend_free h hname hallows hlookup]
    rfl
  | some node =>
    cases node with
    | file old =>
      rw [locate_extend_found h hname hallows hlookup (by simp)]
      rfl
    | link target => exact absurd hlookup (hlink target)
    | folder es => simp [hlookup, Node.isFolder] at hfolder

theorem writeBytes_of_not_accepts (h : d.locate p .target = .ok (.found F (.folder entries)))
    (hname : IsEntryName name) (haccepts : ¬d.Accepts p entries name) (bytes : List UInt8) :
    ∃ fault, d.writeBytes (p.extend [name]) bytes = .error fault := by
  rw [writeBytes]
  cases hclosed : d.isClosed (p.extend [name]) with
  | true => exact ⟨.denied, by simp⟩
  | false =>
    rw [if_neg Bool.false_ne_true]
    by_cases hallows : Allows p name
    · have hfolder : (entries.lookup name).any Node.isFolder = true := by
        rw [← Bool.not_eq_false]
        exact fun hfolder => haccepts ⟨hclosed, hallows, hfolder⟩
      cases hlookup : entries.lookup name with
      | none => simp [hlookup] at hfolder
      | some node =>
        cases node with
        | folder es =>
          rw [locate_extend_found h hname hallows hlookup (by simp)]
          exact ⟨.isFolder, rfl⟩
        | _ => simp [hlookup, Node.isFolder] at hfolder
    · rw [locate_extend_long h hname hallows]
      exact ⟨.nameTooLong, rfl⟩

/-- A path to a folder leads to the same place on a disk that keeps folders and links. -/
theorem locate_of_keeps (h : d.locate p .target = .ok (.found F (.folder entries)))
    (other : Disk) (hhere : other.here = d.here) (hkeeps : Keeps d.top other.top)
    {node : Node} (hnode : other.top.find? F = some node) :
    other.locate p .target = .ok (.found F node) := by
  obtain ⟨hnul, hshort, hwalk⟩ := walk_of_locate h
  have haim : Aim.target ≠ .writing := by decide
  have horigin : other.origin p = d.origin p := by rw [origin, origin, hhere]
  rw [locate_eq_walk hnul hshort, horigin]
  rcases walk_continues hkeeps (.inl ⟨rfl, haim⟩) hwalk with
    ⟨jump, found, hfound, hresult⟩ | ⟨haim, -⟩
  · obtain rfl := Option.some.inj (hfound.symm.trans hnode)
    rw [List.append_nil] at hresult
    rw [hresult, walkWith, List.reverse_reverse]
  · cases haim

/-- What is in the folder after a file has been written into it. -/
theorem locate_withFile (h : d.locate p .target = .ok (.found F (.folder entries)))
    (hold : ∀ old, entries.lookup name = some old → ∃ bytes, old = .file bytes)
    (bytes : List UInt8) : (d.withFile F name bytes).locate p .target =
      .ok (.found F (.folder (putEntry name (.file bytes) entries))) := by
  have hfound : d.top.find? F = some (.folder entries) := walk_isIn (walk_of_locate h).2.2
  have hkeeps : Keeps d.top (d.withFile F name bytes).top :=
    keeps_put hfound (.inl ⟨bytes, rfl⟩) fun old hlookup => by
      obtain ⟨contents, rfl⟩ := hold old hlookup
      exact ⟨.inl ⟨contents, rfl⟩, trivial⟩
  exact locate_of_keeps h (d.withFile F name bytes) rfl hkeeps (find?_put_folder hfound)

theorem readBytes_of_file (h : d.locate p .target = .ok (.found F (.folder entries)))
    (hname : IsEntryName name) (haccepts : d.Accepts p entries name) {bytes : List UInt8}
    (hlookup : entries.lookup name = some (.file bytes)) :
    d.readBytes (p.extend [name]) = .ok bytes := by
  rw [readBytes, haccepts.1, if_neg Bool.false_ne_true,
    locate_extend_found h hname haccepts.2.1 hlookup (by simp)]

/-- Writing a file leaves all others as they are. -/
theorem file_withFile_iff (h : d.locate p .target = .ok (.found F (.folder entries)))
    (hold : ∀ old, entries.lookup name = some old → ∃ bytes, old = .file bytes)
    {bytes contents : List UInt8} {names : List String} (hnames : names ≠ F ++ [name]) :
    (d.withFile F name bytes).top.find? names = some (.file contents) ↔
      d.top.find? names = some (.file contents) := by
  have hfound : d.top.find? F = some (.folder entries) := walk_isIn (walk_of_locate h).2.2
  have hleaf : (Node.file bytes).IsLeaf := .inl ⟨bytes, rfl⟩
  rcases find?_put_entry hfound hleaf (fun old hlookup => .inl (hold old hlookup)) names with
    ⟨heq, -⟩ | ⟨es, es', hes, hes'⟩ | hsame
  · exact absurd heq hnames
  · rw [withFile, hes, hes']
    simp
  · rw [withFile, hsame]

/-! ## Folders with fewer files -/

/-- The disk with other entries in a folder. -/
def withEntries (d : Disk) (F : List String) (entries : List (String × Node)) : Disk :=
  { d with top := d.top.put F (.folder entries) }

/-- What is in the folder after files have been taken out of it. -/
theorem locate_withEntries (h : d.locate p .target = .ok (.found F (.folder entries)))
    {keep : String → Bool}
    (hfiles : ∀ name node, entries.lookup name = some node → keep name = false →
      ∃ bytes, node = .file bytes) :
    (d.withEntries F (entries.filter fun entry => keep entry.1)).locate p .target =
      .ok (.found F (.folder (entries.filter fun entry => keep entry.1))) := by
  have hfound : d.top.find? F = some (.folder entries) := walk_isIn (walk_of_locate h).2.2
  exact locate_of_keeps h (d.withEntries F _) rfl (keeps_put_filter hfound hfiles)
    (find?_put hfound _)

/-- The files that are left are read as before. -/
theorem readBytes_withEntries (h : d.locate p .target = .ok (.found F (.folder entries)))
    {keep : String → Bool}
    (hfiles : ∀ name node, entries.lookup name = some node → keep name = false →
      ∃ bytes, node = .file bytes) (hname : IsEntryName name) (hkeep : keep name = true)
    {bytes : List UInt8} (hlookup : entries.lookup name = some (.file bytes)) :
    (d.withEntries F (entries.filter fun entry => keep entry.1)).readBytes (p.extend [name]) =
      d.readBytes (p.extend [name]) := by
  have hother := locate_withEntries h hfiles
  have hlocate : (d.withEntries F (entries.filter fun entry => keep entry.1)).locate
      (p.extend [name]) .target = d.locate (p.extend [name]) .target := by
    by_cases hallows : Allows p name
    · rw [locate_extend_found h hname hallows hlookup (by simp),
        locate_extend_found hother hname hallows (by rw [lookup_filter, hkeep, if_pos rfl, hlookup])
          (by simp)]
    · rw [locate_extend_long h hname hallows, locate_extend_long hother hname hallows]
  rw [readBytes, readBytes, hlocate]
  rfl

/-! ## Folders -/

/-- The same files are on two disks, in the same places. -/
structure SameFiles (d other : Disk) : Prop where
  here : other.here = d.here
  closed : other.closed = d.closed
  files : ∀ {names bytes}, other.top.find? names = some (.file bytes) ↔
    d.top.find? names = some (.file bytes)

theorem SameFiles.refl (d : Disk) : SameFiles d d := ⟨rfl, rfl, Iff.rfl⟩

theorem SameFiles.trans {d other third : Disk} (h : SameFiles d other)
    (h' : SameFiles other third) : SameFiles d third :=
  ⟨h'.here.trans h.here, h'.closed.trans h.closed, h'.files.trans h.files⟩

theorem sameFiles_of_place {other : Disk} (h : d.place p .emptyFolder = .ok other) :
    SameFiles d other := by
  unfold place at h
  split at h
  · cases h
  · rename_i folder name hlocate
    obtain rfl := Except.ok.inj h
    obtain ⟨entries, hfound, hlookup⟩ := walk_isIn (walk_of_locate hlocate).2.2
    refine ⟨rfl, rfl, fun {names bytes} => ?_⟩
    have hold : ∀ old, entries.lookup name = some old → old.IsLeaf := by
      rw [hlookup]
      rintro _ ⟨⟩
    rcases find?_put_entry hfound (.inr rfl) hold names with
      ⟨rfl, hnew⟩ | ⟨es, es', hes, hes'⟩ | hsame
    · have hnone : d.top.find? (folder ++ [name]) = none := by
        simp [find?_append, hfound, find?, child?, hlookup]
      rw [hnew, hnone]
      simp [emptyFolder]
    · rw [hes, hes']
      simp
    · rw [hsame]
  · cases h

theorem sameFiles_of_makeFolder {other : Disk} (h : d.makeFolder p = .ok other) :
    SameFiles d other := by
  unfold makeFolder at h
  split at h
  · rename_i hplace
    obtain rfl := Except.ok.inj h
    exact sameFiles_of_place hplace
  · split at h
    · split at h
      · obtain rfl := Except.ok.inj h
        exact .refl d
      all_goals cases h
    · cases h

/-- **Making folders leaves all files as they are**, also if it fails on the way. -/
theorem sameFiles_makeFoldersAt (anchor : Anchor) (limit : Nat) (up : List String) (d : Disk) :
    SameFiles d (makeFoldersAt anchor limit up d).2 := by
  fun_induction makeFoldersAt anchor limit up d with
  | case1 _ d => exact .refl d
  | case2 _ _ _ _ _ _ hmake => exact sameFiles_of_makeFolder hmake
  | case3 _ _ d => exact .refl d
  | case4 name up d p hnone limit a above hup other hmake ih =>
    rw [hup] at ih
    exact ih.trans (sameFiles_of_makeFolder hmake)
  | case5 name up d p hnone limit a above hup fault hmake ih =>
    rw [hup] at ih
    exact ih
  | case6 =>
    assumption
  | case7 => exact .refl _

/-- Nothing is placed where a folder is, or a link to one. -/
theorem place_of_folder (h : d.locate p .target = .ok (.found F (.folder entries))) (node : Node) :
    d.place p node = .error .alreadyExists := by
  obtain ⟨hnul, hshort, hwalk⟩ := walk_of_locate h
  have haim : Aim.itself ≠ .writing := by decide
  have hfound : ∃ names node, d.locate p .itself = .ok (.found names node) := by
    rw [locate_eq_walk hnul hshort, ← List.append_nil p.names]
    rcases walk_continues (Keeps.refl d.top) (.inl ⟨rfl, haim⟩) hwalk with
      ⟨jump, node, -, hresult⟩ | ⟨-, -, names, link, hresult⟩
    · exact ⟨_, node, by rw [hresult, walkWith]⟩
    · exact ⟨names, link, hresult⟩
  obtain ⟨names, node, hlocate⟩ := hfound
  simp only [place, hlocate]

theorem isFolder?_of_locate (h : d.locate p .target = .ok (.found F (.folder entries))) :
    d.isFolder? p = .ok true := by
  simp [isFolder?, node?, h, Except.map, Node.isFolder]

/-- No folder is made on the way if the last one can be made. -/
theorem makeFolders_of_makeFolder {made : Disk} (h : d.makeFolder p = .ok made)
    (hne : p.names ≠ []) : d.makeFolders p = (.ok (), made) := by
  obtain ⟨anchor, names⟩ := p
  rw [makeFolders]
  cases hnames : names.reverse with
  | nil => exact absurd (List.reverse_eq_nil_iff.1 hnames) hne
  | cons name up =>
    rw [← List.reverse_eq_iff.2 hnames.symm] at h
    unfold makeFoldersAt
    simp only [h]

theorem makeFolders_of_error {fault : Fault} (h : d.makeFolder p = .error fault)
    (hfault : fault ≠ .notFound) (hne : p.names ≠ []) : d.makeFolders p = (.error fault, d) := by
  obtain ⟨anchor, names⟩ := p
  rw [makeFolders]
  cases hnames : names.reverse with
  | nil => exact absurd (List.reverse_eq_nil_iff.1 hnames) hne
  | cons name up =>
    rw [← List.reverse_eq_iff.2 hnames.symm] at h
    unfold makeFoldersAt
    simp only [h]

theorem makeFolders_of_folder (h : d.locate p .target = .ok (.found F (.folder entries))) :
    d.makeFolders p = (.ok (), d) := by
  by_cases hne : p.names = []
  · rw [makeFolders, hne, List.reverse_nil, makeFoldersAt]
  · refine makeFolders_of_makeFolder ?_ hne
    simp [makeFolder, place_of_folder h, isFolder?_of_locate h, Fault.ofSystem]

end Disk

end WorkspaceAudit
