import WorkspaceAudit.Files.Disk

/-!
# Links lead to one place

The system and `Node.settle` follow links in different ways: the first goes along one row of names
and puts the target of a link in front of the rest, the second settles a link on its own and keeps
a table of the links met. Here they are shown to agree.

- `Leads top here todo n there`: from the place `here`, the names `todo` lead over `n` links to the
  place `there`. Places are rows of names with the last name first, as in `Node.walk`.
- `WalkStep`: what a walk does at one name (`walkWith_cons`).
- `walk_leads`: a path that the system follows to a node leads to the place of that node.
- `settleWith_of_leads`: names that lead to a place settle to it. A link that is being followed is
  not met again, since following it takes more links than are left.
- `resolve_of_leads`: what a path that leads to a place resolves to, from the root or from a working
  folder without links; `resolve_located`: so it is for what is located under a path.
-/

namespace WorkspaceAudit

namespace Node

/-- A name that is looked up: not empty, and no dots. -/
def IsPlain (name : String) : Prop := name ≠ "" ∧ name ≠ "." ∧ name ≠ ".."

/-- A name that is no link leads from `here` to the next place. -/
inductive Step (top : Node) (here : List String) (name : String) : List String → Prop where
  | stay (dot : name = "" ∨ name = ".") : Step top here name here
  | up (dots : name = "..") : Step top here name here.tail
  | down {node : Node} (plain : IsPlain name) (found : top.find? (name :: here).reverse = some node)
      (noLink : ∀ target, node ≠ .link target) : Step top here name (name :: here)

/-- A link to `target` has the name at `here`. -/
def IsLink (top : Node) (here : List String) (name target : String) : Prop :=
  IsPlain name ∧ top.find? (name :: here).reverse = some (.link target)

/-- From `here`, the names lead over so many links to `there`. -/
inductive Leads (top : Node) : List String → List String → Nat → List String → Prop where
  | done {here : List String} : Leads top here [] 0 here
  | step {here next rest there : List String} {n : Nat} {name : String}
      (step : Step top here name next) (more : Leads top next rest n there) :
      Leads top here (name :: rest) n there
  | follow {here rest there : List String} {n : Nat} {name target : String}
      (link : IsLink top here name target)
      (more : Leads top (if isRooted target then [] else here) (route target ++ rest) n there) :
      Leads top here (name :: rest) (n + 1) there

section Step

variable {top : Node} {here next other : List String} {name target : String}

theorem dot_or_dots_or_isPlain (name : String) :
    (name = "" ∨ name = ".") ∨ name = ".." ∨ IsPlain name := by
  by_cases hdot : name = "" ∨ name = "."
  · exact .inl hdot
  · obtain ⟨hempty, hdot⟩ := not_or.1 hdot
    by_cases hdots : name = ".."
    · exact .inr (.inl hdots)
    · exact .inr (.inr ⟨hempty, hdot, hdots⟩)

theorem IsPlain.not_dot (h : IsPlain name) : ¬(name = "" ∨ name = ".") :=
  fun dot => dot.elim h.1 h.2.1

theorem IsPlain.not_beq_dot (h : IsPlain name) : ¬(name == "" || name == ".") = true := by
  simpa using h.not_dot

theorem IsPlain.not_beq_dots (h : IsPlain name) : ¬(name == "..") = true := by
  simpa using h.2.2

theorem Step.unique (h : Step top here name next) (h' : Step top here name other) :
    next = other := by
  cases h with
  | stay dot =>
    cases h' with
    | stay => rfl
    | up dots => simp [dots] at dot
    | down plain => exact absurd dot plain.not_dot
  | up dots =>
    cases h' with
    | stay dot => simp [dots] at dot
    | up => rfl
    | down plain => exact absurd dots plain.2.2
  | down plain =>
    cases h' with
    | stay dot => exact absurd dot plain.not_dot
    | up dots => exact absurd dots plain.2.2
    | down => rfl

theorem Step.not_isLink (h : Step top here name next) : ¬IsLink top here name target := by
  rintro ⟨plain, found⟩
  cases h with
  | stay dot => exact plain.not_dot dot
  | up dots => exact plain.2.2 dots
  | down _ found' noLink => exact noLink target (Option.some.inj (found'.symm.trans found))

theorem IsLink.unique {target' : String} (h : IsLink top here name target)
    (h' : IsLink top here name target') : target = target' :=
  Node.link.inj (Option.some.inj (h.2.symm.trans h'.2))

end Step

theorem find?_folder_cons (entries : List (String × Node)) (name : String) (names : List String) :
    (Node.folder entries).find? (name :: names) = (entries.lookup name).bind (·.find? names) := by
  simp only [find?, child?]
  cases entries.lookup name <;> rfl

theorem find?_append (node : Node) (a b : List String) :
    node.find? (a ++ b) = (node.find? a).bind (·.find? b) := by
  induction a generalizing node with
  | nil => rfl
  | cons name a ih =>
    rw [List.cons_append, find?, find?]
    cases node.child? name with
    | none => rfl
    | some child => exact ih child

theorem find?_reverse_cons {top : Node} {here : List String} {entries : List (String × Node)}
    (h : top.find? here.reverse = some (.folder entries)) (name : String) :
    top.find? (name :: here).reverse = entries.lookup name := by
  rw [List.reverse_cons, find?_append, h, Option.bind_some, find?_folder_cons]
  cases entries.lookup name <;> rfl

/-- What is in a folder under a name is one of its entries. -/
theorem mem_of_find?_concat {top node : Node} {place : List String}
    {entries : List (String × Node)} {name : String}
    (h : top.find? place = some (.folder entries))
    (hnode : top.find? (place ++ [name]) = some node) : (name, node) ∈ entries := by
  have hplace : top.find? place.reverse.reverse = some (.folder entries) := by
    rwa [List.reverse_reverse]
  have hlookup := find?_reverse_cons hplace name
  rw [List.reverse_cons, List.reverse_reverse, hnode] at hlookup
  obtain ⟨before, after, rfl, -⟩ := List.lookup_eq_some_iff.1 hlookup.symm
  simp

/-- The links in a folder are those in its entries. -/
theorem link_of_folder {P : String → Prop} {entries : List (String × Node)}
    (h : ∀ entry ∈ entries, ∀ names target, entry.2.find? names = some (.link target) → P target)
    (names : List String) (target : String)
    (hlink : (Node.folder entries).find? names = some (.link target)) : P target := by
  cases names with
  | nil => cases hlink
  | cons name rest =>
    rw [find?_folder_cons] at hlink
    obtain ⟨node, hlookup, hnode⟩ := Option.bind_eq_some_iff.1 hlink
    obtain ⟨before, after, rfl, -⟩ := List.lookup_eq_some_iff.1 hlookup
    exact h (name, node) (by simp) rest target hnode

/-! ## The system goes where names lead -/

/-- What a walk does at a name, from a node that is at its place: in a folder it makes a step, jumps
through a link, or ends at the link itself or at a name that is free. Otherwise it fails for a
reason of its own. -/
inductive WalkStep (top : Node) (aim : Aim) (jump : List String → List String → Except Fault Place)
    (here rest : List String) (name : String) : Node → Except Fault Place → Prop where
  | step {entries : List (String × Node)} {next : List String} {node : Node}
      {result : Except Fault Place} (short : IsPlain name → name.utf8ByteSize ≤ longestName)
      (step : Step top here name next) (found : top.find? next.reverse = some node)
      (more : walkWith top aim jump node next rest = result) :
      WalkStep top aim jump here rest name (.folder entries) result
  | follow {entries : List (String × Node)} {target : String} {result : Except Fault Place}
      (short : name.utf8ByteSize ≤ longestName) (link : IsLink top here name target)
      (more : jump (if isRooted target then [] else here) (route target ++ rest) = result) :
      WalkStep top aim jump here rest name (.folder entries) result
  | itself {entries : List (String × Node)} {target : String} (itself : aim = .itself)
      (link : IsLink top here name target) :
      WalkStep top aim jump here rest name (.folder entries)
        (.ok (.found (name :: here).reverse (.link target)))
  | free {entries : List (String × Node)} (last : rest = []) (plain : IsPlain name)
      (short : name.utf8ByteSize ≤ longestName) (unused : entries.lookup name = none) :
      WalkStep top aim jump here rest name (.folder entries) (.ok (.free here.reverse name))
  | fault {start : Node} {fault : Fault} (ofSystem : fault.ofSystem = true)
      (own : fault ≠ .tooManyLinks) : WalkStep top aim jump here rest name start (.error fault)

/-- Only in a folder does a walk come to an end. -/
theorem WalkStep.exists_folder {top start : Node} {aim : Aim}
    {jump : List String → List String → Except Fault Place} {here rest : List String}
    {name : String} {place : Place}
    (h : WalkStep top aim jump here rest name start (.ok place)) :
    ∃ entries, start = .folder entries := by
  cases h <;> exact ⟨_, rfl⟩

theorem walkWith_cons {top start : Node} {aim : Aim}
    {jump : List String → List String → Except Fault Place} {here rest : List String}
    {name : String} {result : Except Fault Place} (hstart : top.find? here.reverse = some start)
    (h : walkWith top aim jump start here (name :: rest) = result) :
    WalkStep top aim jump here rest name start result := by
  subst h
  cases start with
  | file bytes => simp only [walkWith]; exact .fault rfl (by decide)
  | link target => simp only [walkWith]; exact .fault rfl (by decide)
  | folder entries =>
    rcases dot_or_dots_or_isPlain name with dot | rfl | plain
    · rw [walkWith, if_pos (by simpa using dot)]
      exact .step (fun plain => absurd dot plain.not_dot) (.stay dot) hstart rfl
    · rw [walkWith, if_neg (by decide), if_pos (by decide)]
      split
      · exact .step (fun plain => absurd rfl plain.2.2) (.up rfl) ‹_› rfl
      · exact .fault rfl (by decide)
    rw [walkWith, if_neg plain.not_beq_dot, if_neg plain.not_beq_dots]
    have hlook := find?_reverse_cons hstart name
    split
    · -- A slash at the end, and a file is to be written.
      exact .fault rfl (by decide)
    split
    · -- The name is too long.
      exact .fault rfl (by decide)
    rename_i hlong
    have short := Nat.not_lt.1 hlong
    split
    · -- No entry has the name: it is free if it is the last one.
      split
      · exact .free (List.isEmpty_iff.1 ‹_›) plain short ‹_›
      · exact .fault rfl (by decide)
    · -- A link has the name.
      rename_i target hentry
      have link : IsLink top here name target := ⟨plain, hlook.trans hentry⟩
      split
      · rename_i hitself
        exact .itself (beq_iff_eq.1 (Bool.and_eq_true_iff.1 hitself).2) link
      · exact .follow short link rfl
    · -- A file or a folder has it.
      rename_i node hlink hentry
      have found := hlook.trans hentry
      exact .step (fun _ => short) (.down plain found hlink) found rfl

/-- One row of names: if every jump through a link leads to its place over at most `k` links, then
so do the names, over at most one link more. -/
theorem walkWith_leads {top : Node} {k : Nat}
    {jump : List String → List String → Except Fault Place}
    (hjump : ∀ {here todo names node}, jump here todo = .ok (.found names node) →
      ∃ n ≤ k, Leads top here todo n names.reverse ∧ top.find? names = some node)
    {todo here names : List String} {start node : Node}
    (hstart : top.find? here.reverse = some start)
    (h : walkWith top .target jump start here todo = .ok (.found names node)) :
    ∃ n ≤ k + 1, Leads top here todo n names.reverse ∧ top.find? names = some node := by
  induction todo generalizing here start with
  | nil =>
    simp only [walkWith, Except.ok.injEq, Place.found.injEq] at h
    obtain ⟨rfl, rfl⟩ := h
    exact ⟨0, Nat.zero_le _, by simpa using .done, hstart⟩
  | cons name rest ih =>
    cases walkWith_cons hstart h with
    | step _ step found more =>
      obtain ⟨n, hn, hleads, hnode⟩ := ih found more
      exact ⟨n, hn, .step step hleads, hnode⟩
    | follow _ link more =>
      obtain ⟨n, hn, hleads, hnode⟩ := hjump more
      exact ⟨n + 1, by omega, .follow link hleads, hnode⟩
    | itself itself => cases itself

/-- What the system does at a link if it may follow so many on the way. -/
def jump (top : Node) : Nat → List String → List String → Except Fault Place
  | 0, _, _ => .error .tooManyLinks
  | links + 1, here, todo => walk top .target links here todo

theorem walk_cases {top : Node} {links : Nat} {here todo : List String}
    {result : Except Fault Place} (h : walk top .target links here todo = result) :
    (∃ start, top.find? here.reverse = some start ∧
      walkWith top .target (jump top links) start here todo = result) ∨
    result = .error .notFound := by
  cases hstart : top.find? here.reverse with
  | none => cases links <;> simp only [walk, hstart] at h <;> exact .inr h.symm
  | some start =>
    cases links <;> simp only [walk, hstart] at h <;> exact .inl ⟨start, rfl, h⟩

/-- **The system goes where names lead**, over no more links than it may follow. -/
theorem walk_leads {top : Node} {links : Nat} {here todo names : List String} {node : Node}
    (h : walk top .target links here todo = .ok (.found names node)) :
    ∃ n ≤ links + 1, Leads top here todo n names.reverse ∧ top.find? names = some node := by
  induction links generalizing here todo names node with
  | zero =>
    rcases walk_cases h with ⟨start, hstart, h⟩ | ⟨⟨⟩⟩
    exact walkWith_leads (by rintro _ _ _ _ ⟨⟩) hstart h
  | succ links ih =>
    rcases walk_cases h with ⟨start, hstart, h⟩ | ⟨⟨⟩⟩
    exact walkWith_leads ih hstart h

/-! ## Where names lead -/

namespace Leads

variable {top : Node} {here there a b : List String} {n : Nat}

/-- Names lead to one place, over so many links and no other number. -/
theorem unique {m : Nat} {other : List String} (h : Leads top here a n there)
    (h' : Leads top here a m other) : n = m ∧ there = other := by
  induction h generalizing m other with
  | done => cases h'; exact ⟨rfl, rfl⟩
  | step step _ ih =>
    cases h' with
    | step step' more => obtain rfl := step.unique step'; exact ih more
    | follow link => exact absurd link step.not_isLink
  | follow link _ ih =>
    cases h' with
    | step step' => exact absurd link step'.not_isLink
    | follow link' more =>
      obtain rfl := link.unique link'
      obtain ⟨rfl, rfl⟩ := ih more
      exact ⟨rfl, rfl⟩

theorem append {m : Nat} {mid : List String} (h : Leads top here a n mid)
    (h' : Leads top mid b m there) : Leads top here (a ++ b) (n + m) there := by
  induction h with
  | done => simpa using h'
  | step step _ ih => exact .step step (ih h')
  | follow link _ ih =>
    rw [Nat.add_right_comm]
    exact .follow link (by simpa using ih h')

/-- Names lead to their place by way of the place that a first part of them leads to. -/
theorem split (h : Leads top here (a ++ b) n there) :
    ∃ k m mid, n = k + m ∧ Leads top here a k mid ∧ Leads top mid b m there := by
  generalize hab : a ++ b = todo at h
  induction h generalizing a with
  | done =>
    obtain ⟨rfl, rfl⟩ := List.append_eq_nil_iff.1 hab
    exact ⟨0, 0, _, rfl, .done, .done⟩
  | @step _ _ _ _ n _ step more ih =>
    cases a with
    | nil => obtain rfl := hab; exact ⟨0, n, _, by simp, .done, .step step more⟩
    | cons c a =>
      obtain ⟨rfl, rfl⟩ := List.cons.inj hab
      obtain ⟨k, m, mid, rfl, h₁, h₂⟩ := ih rfl
      exact ⟨k, m, mid, rfl, .step step h₁, h₂⟩
  -- The names of the target come in front of what is left, so the cut stays where it is.
  | @follow _ _ _ n _ _ link more ih =>
    cases a with
    | nil => obtain rfl := hab; exact ⟨0, n + 1, _, by simp, .done, .follow link more⟩
    | cons c a =>
      obtain ⟨rfl, rfl⟩ := List.cons.inj hab
      obtain ⟨k, m, mid, rfl, h₁, h₂⟩ := ih (List.append_assoc ..)
      exact ⟨k + 1, m, mid, by omega, .follow link h₁, h₂⟩

theorem append_iff : Leads top here (a ++ b) n there ↔
    ∃ k m mid, n = k + m ∧ Leads top here a k mid ∧ Leads top mid b m there :=
  ⟨split, fun ⟨_, _, _, hn, h₁, h₂⟩ => hn ▸ h₁.append h₂⟩

theorem cons_iff {name : String} : Leads top here (name :: b) n there ↔
    ∃ k m mid, n = k + m ∧ Leads top here [name] k mid ∧ Leads top mid b m there :=
  append_iff (a := [name])

theorem empty_cons_iff {name : String} (hname : name = "") :
    Leads top here (name :: a) n there ↔ Leads top here a n there := by
  have stay : Step top here name here := .stay (.inl hname)
  refine ⟨fun h => ?_, .step stay⟩
  cases h with
  | step step more => obtain rfl := stay.unique step; exact more
  | follow link => exact absurd link stay.not_isLink

/-- Empty names lead nowhere else. -/
theorem filter_iff : Leads top here (a.filter (· != "")) n there ↔ Leads top here a n there := by
  induction a generalizing here n with
  | nil => exact Iff.rfl
  | cons name a ih =>
    by_cases hname : name = ""
    · rw [List.filter_cons_of_neg (by simp [hname]), ih, empty_cons_iff hname]
    · rw [List.filter_cons_of_pos (by simpa using hname), cons_iff, cons_iff]
      simp only [ih]

/-- The route of a link leads where the parts of its text lead. -/
theorem route_iff {target : String} :
    Leads top here (route target) n there ↔ Leads top here (slashParts target) n there := by
  rw [← filter_iff, ← filter_iff (a := slashParts target), route, List.filter_append,
    List.filter_filter]
  split <;> simp

/-- In a rooted text the first part is empty. -/
theorem drop_iff {target : String} (h : isRooted target = true) :
    Leads top here ((slashParts target).drop 1) n there ↔
      Leads top here (slashParts target) n there := by
  have hparts : ∃ parts, slashParts target = "" :: parts := by
    rw [isRooted, beq_iff_eq, List.head?_eq_some_iff] at h
    obtain ⟨rest, hrest⟩ := h
    exact ⟨(Text.splitOn '/' rest).map String.ofList, by simp [slashParts, hrest, Text.splitOn]⟩
  obtain ⟨parts, hparts⟩ := hparts
  rw [hparts, empty_cons_iff rfl, List.drop_one, List.tail_cons]

end Leads

/-! ## Spots as places -/

theorem collapse_concat {name : String} (h : IsPlain name) (names : List String) :
    collapse (names ++ [name]) = collapse names ++ [name] := by
  simp [collapse, h.1, h.2.1, h.2.2]

theorem collapse_concat_dots (names : List String) :
    collapse (names ++ [".."]) = (collapse names).dropLast := by
  simp [collapse]

end Node

/-- The spot is the place `here`, whose last name stands first, if `base` is the working folder. -/
def Spot.IsAt (base : List String) (s : Spot) (here : List String) : Prop :=
  s.absolute base = here.reverse ∧
    (s.rooted = false → ∀ name ∈ s.names, name ≠ "" ∧ name ≠ ".")

namespace Spot.IsAt

variable {base here : List String} {s : Spot} {name : String}

theorem root (base : List String) : IsAt base ⟨true, []⟩ [] :=
  ⟨rfl, by simp⟩

theorem unique {other : List String} (h : s.IsAt base here) (h' : s.IsAt base other) :
    here = other :=
  List.reverse_inj.1 (h.1.symm.trans h'.1)

theorem down (h : s.IsAt base here) (plain : Node.IsPlain name) :
    (s.down name).IsAt base (name :: here) := by
  obtain ⟨rooted, names⟩ := s
  obtain ⟨hplace, hnames⟩ := h
  refine ⟨?_, fun hrooted => ?_⟩
  · rw [List.reverse_cons, ← hplace]
    cases rooted with
    | true => rfl
    | false =>
      simp only [Spot.absolute, Spot.down, Bool.false_eq_true, if_false, ← List.append_assoc]
      exact Node.collapse_concat plain _
  · simp only [Spot.down, List.mem_append, List.mem_singleton] at hrooted ⊢
    rintro other (hother | rfl)
    · exact hnames hrooted other hother
    · exact ⟨plain.1, plain.2.1⟩

theorem up (h : s.IsAt base here) : s.up.IsAt base here.tail := by
  obtain ⟨rooted, names⟩ := s
  obtain ⟨hplace, hnames⟩ := h
  have htail : here.tail.reverse = here.reverse.dropLast := by simp
  rw [IsAt, htail, ← hplace]
  cases rooted with
  | true => exact ⟨rfl, by simp [Spot.up]⟩
  | false =>
    -- Up from a relative place: dots are added to no names and to dots, and any other last name
    -- goes.
    rcases List.eq_nil_or_concat names with rfl | ⟨front, last, rfl⟩
    · simp [Spot.up, Spot.absolute, Node.collapse_concat_dots]
    by_cases hdots : last = ".."
    · subst hdots
      refine ⟨?_, ?_⟩
      · simp only [Spot.up, Spot.absolute, List.concat_eq_append, List.getLast?_append,
          List.getLast?_singleton, Option.some_or, beq_self_eq_true, Bool.false_eq_true, if_false,
          if_true, ← List.append_assoc]
        exact Node.collapse_concat_dots _
      · simpa [Spot.up] using hnames
    · have hlast := hnames rfl last (by simp)
      have hfront : ∀ name ∈ front, name ≠ "" ∧ name ≠ "." :=
        fun name hname => hnames rfl name (by simp [hname])
      refine ⟨?_, by simpa [Spot.up, hdots] using hfront⟩
      simp only [Spot.up, Spot.absolute, List.concat_eq_append, List.getLast?_append,
        List.getLast?_singleton, Option.some_or, beq_iff_eq, hdots, Bool.false_eq_true, if_false,
        ← List.append_assoc, List.dropLast_concat]
      rw [Node.collapse_concat ⟨hlast.1, hlast.2, hdots⟩, List.dropLast_concat]

end Spot.IsAt

namespace Node

/-! ## Names settle where they lead -/

section Settle

variable {top : Node} {base : List String} {find : Spot → Option Node}
  {enter : LinksMet → Spot → String → Settled × LinksMet} {met : LinksMet} {spot : Spot}
  {here rest there : List String} {name target : String}

theorem settleWith_step {next : List String} (hfind : ∀ s, find s = top.find? (s.absolute base))
    (hspot : spot.IsAt base here) (h : Step top here name next) :
    ∃ spot', spot'.IsAt base next ∧
      settleWith find enter met spot (name :: rest) = settleWith find enter met spot' rest := by
  cases h with
  | stay dot => exact ⟨spot, hspot, by rw [settleWith, if_pos (by simpa using dot)]⟩
  | up dots =>
    refine ⟨spot.up, hspot.up, ?_⟩
    rw [settleWith, if_neg (by simp [dots]), if_pos (by simpa using dots)]
  | down plain found noLink =>
    have hdown := hspot.down plain
    refine ⟨spot.down name, hdown, ?_⟩
    rw [settleWith, if_neg (by simp [plain.1, plain.2.1]), if_neg (by simp [plain.2.2]), hfind,
      hdown.1, found]
    split
    · exact absurd (Option.some.inj ‹_›) (noLink _)
    · rfl

/-- A link that has been followed, or that leads to a spot now. -/
theorem settleWith_link {place : Spot} (plain : IsPlain name)
    (h : find (spot.down name) = some (.link target)) :
    (met.lookup (spot.down name) = some (some place) →
      settleWith find enter met spot (name :: rest) = settleWith find enter met place rest) ∧
    ∀ {met'}, met.lookup (spot.down name) = none →
      enter ((spot.down name, none) :: met) spot target = (.spot place, met') →
      settleWith find enter met spot (name :: rest) =
        settleWith find enter ((spot.down name, some place) :: met') place rest := by
  rw [settleWith, if_neg (by simp [plain.1, plain.2.1]), if_neg (by simp [plain.2.2]), h]
  refine ⟨fun hmet => by simp only [hmet], fun hmet henter => by simp only [hmet, henter]⟩

end Settle

/-- The table knows where the links lead that it says have been followed. -/
def Followed (top : Node) (base : List String) (met : LinksMet) : Prop :=
  ∀ {link spot : Spot}, met.lookup link = some (some spot) →
    ∀ {here : List String} {name : String}, link.IsAt base (name :: here) →
      ∃ k there, spot.IsAt base there ∧ Leads top here [name] k there

/-- Each link that is being followed takes more than `n` links, if it leads anywhere. -/
def Pending (top : Node) (base : List String) (met : LinksMet) (n : Nat) : Prop :=
  ∀ {link : Spot}, met.lookup link = some none →
    ∀ {here : List String} {name : String}, link.IsAt base (name :: here) →
      ∀ {k : Nat} {there : List String}, Leads top here [name] k there → n < k

section Table

variable {top : Node} {base here there : List String} {met met' : LinksMet} {m n : Nat}
  {link : Spot} {name : String}

theorem Pending.of_le (h : Pending top base met n) (hmn : m ≤ n)
    (hmet : ∀ spot, met'.lookup spot = some none → met.lookup spot = some none) :
    Pending top base met' m :=
  fun hlook _ _ hlink _ _ hleads => Nat.lt_of_le_of_lt hmn (h (hmet _ hlook) hlink hleads)

/-- The invariant when a link is entered: it takes one link more than the names of its target. -/
theorem Pending.enter (h : Pending top base met n) (hmn : m ≤ n)
    (hlink : link.IsAt base (name :: here)) (hleads : Leads top here [name] (m + 1) there) :
    Pending top base ((link, none) :: met) m := by
  intro link' hlook here' name' hlink' k there' hleads'
  rw [List.lookup_cons] at hlook
  split at hlook
  · rename_i heq
    obtain rfl := beq_iff_eq.1 heq
    obtain ⟨rfl, rfl⟩ := List.cons.inj (hlink.unique hlink')
    have := (hleads.unique hleads').1
    omega
  · exact Nat.lt_of_le_of_lt hmn (h hlook hlink' hleads')

theorem Followed.cons {value : Option Spot} (h : Followed top base met)
    (hlink : link.IsAt base (name :: here))
    (hvalue : ∀ spot, value = some spot →
      ∃ k there, spot.IsAt base there ∧ Leads top here [name] k there) :
    Followed top base ((link, value) :: met) := by
  intro link' spot hlook here' name' hlink'
  rw [List.lookup_cons] at hlook
  split at hlook
  · rename_i heq
    obtain rfl := beq_iff_eq.1 heq
    obtain ⟨rfl, rfl⟩ := List.cons.inj (hlink.unique hlink')
    exact hvalue spot (Option.some.inj hlook)
  · exact h hlook hlink'

end Table

/-- Once a link is settled, it is not among those that are being followed. -/
theorem pending_of_settled {met met' : LinksMet} {link : Spot} (place : Spot)
    (h : ∀ spot, met'.lookup spot = some none →
      ((link, none) :: met : LinksMet).lookup spot = some none) :
    ∀ spot, ((link, some place) :: met' : LinksMet).lookup spot = some none →
      met.lookup spot = some none := by
  intro spot hlook
  have hspot := h spot
  cases hlink : spot == link with
  | true => simp [List.lookup_cons, hlink] at hlook
  | false =>
    simp only [List.lookup_cons, hlink] at hlook hspot
    exact hspot hlook

/-- A link settles to the place that its target leads to, if names do. -/
theorem settleLink_of_leads {top : Node} {base : List String} {find : Spot → Option Node}
    {limit m : Nat} {met : LinksMet} {spot : Spot} {here mid : List String} {target : String}
    {P : LinksMet → Prop}
    (hnames : ∀ {spot from' todo}, spot.IsAt base from' → Leads top from' todo m mid →
      ∃ place met', settleWith find (settleLink find limit) met spot todo = (.spot place, met') ∧
        place.IsAt base mid ∧ P met')
    (hspot : spot.IsAt base here)
    (h : Leads top (if isRooted target then [] else here) (route target) m mid) :
    ∃ place met', settleLink find (limit + 1) met spot target = (.spot place, met') ∧
      place.IsAt base mid ∧ P met' := by
  rw [Leads.route_iff] at h
  rw [settleLink]
  cases hrooted : isRooted target with
  | false => rw [hrooted] at h; exact hnames hspot h
  | true =>
    rw [hrooted, if_pos rfl, ← Leads.drop_iff hrooted] at h
    exact hnames (.root base) h

/-- **Names settle where they lead.** The links that are being followed stay the same. -/
theorem settleWith_of_leads {top : Node} {base : List String} {find : Spot → Option Node}
    (hfind : ∀ s, find s = top.find? (s.absolute base)) {n limit : Nat} (hlimit : n ≤ limit)
    {spot : Spot} {here todo there : List String} {met : LinksMet} (hspot : spot.IsAt base here)
    (hleads : Leads top here todo n there) (hfollowed : Followed top base met)
    (hpending : Pending top base met n) :
    ∃ place met', settleWith find (settleLink find limit) met spot todo = (.spot place, met') ∧
      place.IsAt base there ∧ Followed top base met' ∧
      ∀ spot, met'.lookup spot = some none → met.lookup spot = some none := by
  -- The number of links goes down at each link, the names that are left in between.
  induction n using Nat.strongRecOn generalizing limit spot here todo there met with
  | ind n ih =>
    induction todo generalizing spot here met with
    | nil => cases hleads; exact ⟨spot, met, rfl, hspot, hfollowed, fun _ h => h⟩
    | cons name rest ihrest =>
      cases hleads with
      | step step more =>
        obtain ⟨next, hnext, hsettle⟩ := settleWith_step hfind hspot step
        rw [hsettle]
        exact ihrest hnext more hfollowed hpending
      | @follow _ _ _ m _ target link more =>
        obtain ⟨m₁, m₂, mid, rfl, htarget, hrest⟩ := more.split
        have hlink : Leads top here [name] (m₁ + 1) mid :=
          .follow link (by simpa using htarget)
        have hdown := hspot.down link.1
        have hfound : find (spot.down name) = some (.link target) := by
          rw [hfind, hdown.1, link.2]
        rcases hmet : met.lookup (spot.down name) with _ | _ | place
        · -- The target of the link is settled first, then the names after it.
          obtain ⟨limit, rfl⟩ : ∃ l, limit = l + 1 := ⟨limit - 1, by omega⟩
          obtain ⟨place, met₁, henter, hplace, hfollowed₁, hmet₁⟩ := settleLink_of_leads
            (fun hat h => @ih m₁ (by omega) limit (by omega) _ _ _ _ _ hat h
              (hfollowed.cons hdown (by simp)) (hpending.enter (by omega) hdown hlink))
            hspot htarget
          have hsame := pending_of_settled place hmet₁
          rw [(settleWith_link link.1 hfound).2 hmet henter]
          obtain ⟨last, met', hsettle, hlast, hfollowed', hmet'⟩ :=
            @ih m₂ (by omega) (limit + 1) (by omega) _ _ _ _ _ hplace hrest
              (hfollowed₁.cons hdown fun spot h => ⟨_, mid, Option.some.inj h ▸ hplace, hlink⟩)
              (hpending.of_le (by omega) hsame)
          exact ⟨last, met', hsettle, hlast, hfollowed', fun spot h => hsame spot (hmet' spot h)⟩
        · -- Following the link again would take more links than are left.
          have := hpending hmet hdown hlink
          omega
        · obtain ⟨k, there', hplace, hk⟩ := hfollowed hmet hdown
          obtain ⟨rfl, rfl⟩ := hk.unique hlink
          rw [(settleWith_link link.1 hfound).1 hmet]
          exact ih m₂ (by omega) (by omega) hplace hrest hfollowed
            (hpending.of_le (by omega) fun _ h => h)

theorem settle_of_leads {top : Node} {base here todo names : List String} {spot : Spot} {n : Nat}
    (hspot : spot.IsAt base here) (hn : n ≤ settleLimit)
    (h : Leads top here todo n names.reverse) :
    ∃ place, settle top base spot todo = .spot place ∧ place.absolute base = names := by
  obtain ⟨place, _, hsettle, hplace, _⟩ :=
    @settleWith_of_leads _ base (fun s => top.find? (s.absolute base)) (fun _ => rfl) _ _ hn _ _ _
      _ [] hspot h (by simp [Followed]) (by simp [Pending])
  refine ⟨place, by simp only [settle, hsettle], ?_⟩
  rw [hplace.1, List.reverse_reverse]

/-! ## Places without links -/

/-- A row of names, the last one first, with no link on the way. -/
inductive Straight (top : Node) : List String → Prop where
  | root : Straight top []
  | down {here : List String} {name : String} {node : Node} (above : Straight top here)
      (plain : IsPlain name) (found : top.find? (name :: here).reverse = some node)
      (noLink : ∀ target, node ≠ .link target) : Straight top (name :: here)

theorem Straight.leads {top : Node} {here : List String} (h : Straight top here) :
    Leads top [] here.reverse 0 here := by
  induction h with
  | root => exact .done
  | down _ plain found noLink ih =>
    rw [List.reverse_cons]
    exact ih.append (.step (.down plain found noLink) .done)

/-- Names without links are not changed by taking dots out. -/
theorem Straight.collapse_eq {top : Node} {here : List String} (h : Straight top here) :
    collapse here.reverse = here.reverse := by
  induction h with
  | root => rfl
  | down _ plain _ _ ih => rw [List.reverse_cons, collapse_concat plain, ih]

theorem Step.straight {top : Node} {here next : List String} {name : String}
    (h : Step top here name next) (hhere : Straight top here) : Straight top next := by
  cases h with
  | stay => exact hhere
  | up =>
    cases hhere with
    | root => exact .root
    | down above => exact above
  | down plain found noLink => exact .down hhere plain found noLink

/-- Names lead from a place without links to one without links. -/
theorem Leads.straight {top : Node} {here todo there : List String} {n : Nat}
    (h : Leads top here todo n there) (hhere : Straight top here) : Straight top there := by
  induction h with
  | done => exact hhere
  | step step _ ih => exact ih (step.straight hhere)
  | follow _ _ ih =>
    apply ih
    split
    · exact .root
    · exact hhere

/-! ## Faults of the system -/

/-- A walk along names fails for a reason of its own, or at a link on the way. -/
theorem walkWith_error {top : Node} {jump : List String → List String → Except Fault Place}
    {todo here : List String} {start : Node} {fault : Fault}
    (hstart : top.find? here.reverse = some start)
    (h : walkWith top .target jump start here todo = .error fault) :
    (fault.ofSystem = true ∧ fault ≠ .tooManyLinks) ∨
      (∃ base names, jump base names = .error fault) ∧ ∀ there, ¬Leads top here todo 0 there := by
  induction todo generalizing here start with
  | nil => simp [walkWith] at h
  | cons name rest ih =>
    cases walkWith_cons hstart h with
    | step _ step found more =>
      refine (ih found more).imp_right fun ⟨hjump, hleads⟩ => ⟨hjump, fun there h => ?_⟩
      cases h with
      | step step' more => obtain rfl := step.unique step'; exact hleads there more
    | follow _ link more =>
      refine .inr ⟨⟨_, _, more⟩, fun there h => ?_⟩
      cases h with
      | step step => exact step.not_isLink link
    | fault ofSystem own => exact .inl ⟨ofSystem, own⟩

/-- Where a walk fails, the system says why. -/
theorem walk_error {top : Node} {links : Nat} {here todo : List String} {fault : Fault}
    (h : walk top .target links here todo = .error fault) : fault.ofSystem = true := by
  induction links generalizing here todo with
  | zero =>
    rcases walk_cases h with ⟨start, hstart, h⟩ | ⟨⟨⟩⟩
    · rcases walkWith_error hstart h with own | ⟨⟨_, _, ⟨⟩⟩, _⟩
      · exact own.1
      · rfl
    · rfl
  | succ links ih =>
    rcases walk_cases h with ⟨start, hstart, h⟩ | ⟨⟨⟩⟩
    · rcases walkWith_error hstart h with own | ⟨⟨_, _, h⟩, _⟩
      · exact own.1
      · exact ih h
    · rfl

/-- Without a link on the way there are not too many. -/
theorem walk_ne_tooManyLinks {top : Node} {links : Nat} {here todo there : List String}
    (hleads : Leads top here todo 0 there) :
    walk top .target links here todo ≠ .error .tooManyLinks := by
  intro h
  rcases walk_cases h with ⟨start, hstart, h⟩ | ⟨⟨⟩⟩
  rcases walkWith_error hstart h with own | link
  · exact own.2 rfl
  · exact link.2 there hleads

end Node

/-! ## Paths without links -/

namespace Disk

open Node

variable {d : Disk} {p q : Path} {names : List String}

/-- Where the names of a path start, the last name first. -/
def origin (d : Disk) (p : Path) : List String :=
  if p.anchor == .here then d.here.reverse else []

theorem straight_origin (hanchor : p.anchor ≠ .here) : Straight d.top (d.origin p) := by
  have horigin : d.origin p = [] := by simp [origin, hanchor]
  rw [horigin]
  exact .root

/-- What is located under a path is where its names lead. -/
theorem locate_leads {node : Node} (h : d.locate p .target = .ok (.found names node)) :
    hasNul p = false ∧ d.top.find? names = some node ∧
      ∃ n ≤ settleLimit, Leads d.top (d.origin p) p.names n names.reverse := by
  unfold locate at h
  split at h
  · cases h
  split at h
  · cases h
  obtain ⟨n, hn, hleads, hnode⟩ := walk_leads h
  exact ⟨by simpa using ‹¬hasNul p = true›, hnode, n, Nat.le_trans hn (by decide), hleads⟩

theorem locate_error {fault : Fault} (h : d.locate p .target = .error fault)
    (hnul : hasNul p = false) : fault.ofSystem = true := by
  unfold locate at h
  rw [hnul, if_neg (by simp)] at h
  split at h
  · cases h; rfl
  · exact walk_error h

/-- A folder that is there is located under its path. -/
theorem exists_locate_of_isFolder? (h : d.isFolder? p = .ok true) :
    ∃ names entries, d.locate p .target = .ok (.found names (.folder entries)) := by
  unfold isFolder? node? at h
  split at h
  · rename_i names node hlocate
    cases node with
    | folder entries => exact ⟨names, entries, hlocate⟩
    | _ => cases h
  · cases h
  · cases h

/-- The spot that a path is settled from is the place where its names start. -/
theorem isAt_origin (horigin : Straight d.top (d.origin p)) :
    Spot.IsAt d.here ⟨p.anchor != .here, []⟩ (d.origin p) := by
  refine ⟨?_, by simp⟩
  by_cases hanchor : p.anchor = .here
  · simp only [origin, hanchor, beq_self_eq_true, if_true] at horigin ⊢
    simpa [Spot.absolute] using horigin.collapse_eq
  · simp [origin, hanchor, Spot.absolute]

/-- **A path that leads to a place resolves to it.** -/
theorem resolve_of_leads {n : Nat} (horigin : Straight d.top (d.origin p))
    (hnul : hasNul p = false) (hn : n ≤ settleLimit)
    (h : Leads d.top (d.origin p) p.names n names.reverse) :
    d.resolve p = .ok ⟨.root, names⟩ := by
  have hsettled : d.settled p = .ok ⟨.root, names⟩ := by
    obtain ⟨place, hsettle, hplace⟩ := settle_of_leads (isAt_origin horigin) hn h
    simp only [settled, hsettle, hplace]
  have hstraight := (h.straight horigin).leads
  rw [List.reverse_reverse] at hstraight
  -- The end is looked at once more; no link is on the way there.
  have hlocate : d.locate ⟨.root, names⟩ .target ≠ .error .tooManyLinks := by
    unfold locate
    split
    · simp
    split
    · simp
    · exact walk_ne_tooManyLinks hstraight
  rw [resolve, hnul, if_neg (by simp), hsettled]
  dsimp only [bind, Except.bind]
  split
  · exact absurd ‹_› hlocate
  · rfl

/-- What is located under a path is where the path resolves to. -/
theorem resolve_located {node : Node} (horigin : Straight d.top (d.origin p))
    (h : d.locate p .target = .ok (.found names node)) : d.resolve p = .ok ⟨.root, names⟩ := by
  obtain ⟨hnul, -, n, hn, hleads⟩ := locate_leads h
  exact resolve_of_leads horigin hnul hn hleads

/-- A place without links resolves to itself. -/
theorem resolve_of_straight (h : Straight d.top names.reverse)
    (hnul : hasNul ⟨.root, names⟩ = false) :
    d.resolve ⟨.root, names⟩ = .ok ⟨.root, names⟩ := by
  have hleads := h.leads
  rw [List.reverse_reverse] at hleads
  exact resolve_of_leads .root hnul (Nat.zero_le _) hleads

theorem settled_of_resolve (h : d.resolve p = .ok q) : d.settled p = .ok q := by
  unfold resolve at h
  split at h
  · cases h
  cases hq : d.settled p with
  | error fault => rw [hq] at h; cases h
  | ok q' =>
    rw [hq] at h
    simp only [bind, Except.bind] at h
    split at h
    · cases h
    · exact h

/-- What a path resolves to has an anchor. -/
theorem resolve_anchor (h : d.resolve p = .ok q) : q.anchor ≠ .here := by
  have hsettled := settled_of_resolve h
  unfold settled at hsettled
  split at hsettled
  · cases hsettled; simp
  · cases hsettled
    split
    · simp
    · rename_i hanchor
      simpa using hanchor
  · cases hsettled

end Disk

end WorkspaceAudit
