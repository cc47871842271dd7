import WorkspaceAudit.Proofs.Json.Readers
import WorkspaceAudit.Proofs.Scan.Auditing
import WorkspaceAudit.Proofs.Workspace.Failing

/-!
# What the audit tool may print

A text that is no JSON, or no object, gives no findings. In an object, each vulnerable package gives
one. But the shapes of the parts are taken for granted, and one part of another shape costs all
findings.

- `Audit.Unreadable`: an entry of the wrong shape; `Audit.Malformed`: an object with such an entry.
- `Audit.fails_findings_iff`: exactly these objects end in a fault.
- `Audit.Reports`: what a finding says about a package.
- `Audit.forall₂_findings`: all other objects give one finding for each entry, in order.
- `scanDependencies_of_prints`: what comes of every text that the tool prints.
-/

namespace WorkspaceAudit

/-- Steps that all give a result give one each, in order. -/
theorem forall₂_of_mapM {α β ε : Type} {g : α → Except ε β} {xs : List α} {ys : List β}
    (h : xs.mapM g = .ok ys) : List.Forall₂ (fun x y => g x = .ok y) xs ys := by
  induction xs generalizing ys with
  | nil =>
    obtain rfl := Except.ok.inj h
    exact .nil
  | cons x xs ih =>
    rw [List.mapM_cons] at h
    obtain ⟨y, hy, h⟩ := exists_ok_of_bind h
    obtain ⟨others, hothers, h⟩ := exists_ok_of_bind h
    obtain rfl := Except.ok.inj h
    exact .cons hy (ih hothers)

namespace Audit

variable {package : LooseText} {v : Json LooseText} {payload vulnerability : Json.Members}

/-! ## Shapes -/

/-- An advisory whose name is no text. Its name is its title or, if that is missing or empty, its
address. -/
def Nameless (advisory : Json.Members) : Prop :=
  ∃ name, (present? (advisory.get? "title") = some name ∨
    present? (advisory.get? "title") = none ∧ present? (advisory.get? "url") = some name) ∧
    ∀ s, name ≠ .string s

/-- An entry of the vulnerable packages that has the wrong shape. -/
inductive Unreadable : Json LooseText → Prop where
  /-- It is no object. -/
  | entry {v : Json LooseText} (shape : ∀ vulnerability, v ≠ .object vulnerability) : Unreadable v
  /-- What it is vulnerable through has no parts. -/
  | via {vulnerability : Json.Members} {via : Json LooseText}
    (present : present? (vulnerability.get? "via") = some via) (text : ∀ s, via ≠ .string s)
    (array : ∀ items, via ≠ .array items) (object : ∀ members, via ≠ .object members) :
    Unreadable (.object vulnerability)
  /-- It is vulnerable through an advisory whose name is no text. -/
  | advisory {vulnerability advisory : Json.Members} {items : List (Json LooseText)}
    (present : present? (vulnerability.get? "via") = some (.array items))
    (mem : .object advisory ∈ items) (nameless : Nameless advisory) :
    Unreadable (.object vulnerability)

/-- The output of the tool has vulnerable packages of the wrong shape. -/
inductive Malformed (payload : Json.Members) : Prop where
  | packages {v : Json LooseText} (present : present? (payload.get? "vulnerabilities") = some v)
    (shape : ∀ packages, v ≠ .object packages) : Malformed payload
  | entry {packages : Json.Members} {entry : LooseText × Json LooseText}
    (present : present? (payload.get? "vulnerabilities") = some (.object packages))
    (mem : entry ∈ packages) (unreadable : Unreadable entry.2) : Malformed payload

/-! ## Faults -/

theorem fails_members_iff : Fails (members v) ↔ ∀ ms, v ≠ .object ms := by
  cases v <;> simp [members]

theorem eq_object_of_members {ms : Json.Members} (h : members v = .ok ms) : v = .object ms := by
  cases v with
  | object others => rw [Except.ok.inj h]
  | _ => cases h

theorem fails_nameText_iff : Fails (nameText v) ↔ ∀ s, v ≠ .string s := by
  cases v <;> simp [nameText]

theorem fails_parts_iff : Fails (parts v) ↔
    (∀ s, v ≠ .string s) ∧ (∀ items, v ≠ .array items) ∧ ∀ ms, v ≠ .object ms := by
  cases v <;> simp [parts]

theorem isTruthy_of_present? {w : Option (Json LooseText)} (h : present? w = some v) :
    v.isTruthy = true :=
  (Option.filter_eq_some_iff.1 h).2

/-- An advisory goes by a name that is no text, if it is an object with such a name. -/
theorem exists_fails_advisoryName_iff :
    (∃ name, advisoryName v = some name ∧ name.isTruthy = true ∧ Fails (nameText name)) ↔
      ∃ advisory, v = .object advisory ∧ Nameless advisory := by
  simp only [fails_nameText_iff]
  cases v with
  | object advisory =>
    simp only [advisoryName, Json.object.injEq, exists_eq_left', Nameless]
    cases htitle : present? (Json.Members.get? advisory "title") with
    | some title => simpa using fun _ => isTruthy_of_present? htitle
    | none =>
      refine exists_congr fun name => ?_
      simp only [reduceCtorEq, false_or, true_and]
      exact and_congr_right fun hurl => and_iff_right (isTruthy_of_present? hurl)
  | _ => simp [advisoryName]

/-- The names of some parts cannot be put together, if one of them is an advisory without a text for
its name. -/
theorem fails_names_iff {parts : List (Json LooseText)} :
    Fails (((parts.filterMap advisoryName).filter Json.isTruthy).mapM nameText) ↔
      ∃ advisory, .object advisory ∈ parts ∧ Nameless advisory := by
  rw [fails_mapM_iff]
  constructor
  · rintro ⟨name, hname, hfails⟩
    obtain ⟨hname, htruthy⟩ := List.mem_filter.1 hname
    obtain ⟨part, hpart, hname⟩ := List.mem_filterMap.1 hname
    obtain ⟨advisory, rfl, hnameless⟩ :=
      exists_fails_advisoryName_iff.1 ⟨name, hname, htruthy, hfails⟩
    exact ⟨advisory, hpart, hnameless⟩
  · rintro ⟨advisory, hpart, hnameless⟩
    obtain ⟨name, hname, htruthy, hfails⟩ :=
      exists_fails_advisoryName_iff.2 ⟨advisory, rfl, hnameless⟩
    exact ⟨name, List.mem_filter.2 ⟨List.mem_filterMap.2 ⟨_, hpart, hname⟩, htruthy⟩, hfails⟩

/-- Only the parts of a list can be objects. -/
theorem object_mem_of_parts {ps : List (Json LooseText)} {members : Json.Members}
    (hparts : parts v = .ok ps) (hmem : .object members ∈ ps) : v = .array ps := by
  cases v with
  | array items => rw [Except.ok.inj hparts]
  | string s =>
    obtain rfl := Except.ok.inj hparts
    simp at hmem
  | object ms =>
    obtain rfl := Except.ok.inj hparts
    simp at hmem
  | _ => cases hparts

theorem advisoryNames_of_absent {via : Option (Json LooseText)} (h : present? via = none) :
    advisoryNames via = .ok [] := by
  rw [advisoryNames, h]
  rfl

theorem advisoryNames_of_present {via : Option (Json LooseText)} (h : present? via = some v) :
    advisoryNames via = parts v >>= fun ps =>
      ((ps.filterMap advisoryName).filter Json.isTruthy).mapM nameText := by
  rw [advisoryNames, h]

theorem fails_advisoryNames_iff :
    Fails (advisoryNames (vulnerability.get? "via")) ↔ Unreadable (.object vulnerability) := by
  constructor
  · intro hfails
    cases hvia : present? (vulnerability.get? "via") with
    | none =>
      rw [advisoryNames_of_absent hvia] at hfails
      exact absurd hfails (not_fails_ok _)
    | some via =>
      rw [advisoryNames_of_present hvia, fails_bind_iff] at hfails
      rcases hfails with hfails | ⟨ps, hparts, hfails⟩
      · obtain ⟨htext, harray, hobject⟩ := fails_parts_iff.1 hfails
        exact .via hvia htext harray hobject
      · obtain ⟨advisory, hmem, hnameless⟩ := fails_names_iff.1 hfails
        obtain rfl := object_mem_of_parts hparts hmem
        exact .advisory hvia hmem hnameless
  · intro hunreadable
    cases hunreadable with
    | entry shape => exact absurd rfl (shape vulnerability)
    | via present text array object =>
      rw [advisoryNames_of_present present, fails_bind_iff]
      exact .inl (fails_parts_iff.2 ⟨text, array, object⟩)
    | advisory present mem nameless =>
      rw [advisoryNames_of_present present, fails_bind_iff]
      exact .inr ⟨_, rfl, fails_names_iff.2 ⟨_, mem, nameless⟩⟩

/-- **An entry ends in a fault exactly if it has the wrong shape.** -/
theorem fails_finding_iff : Fails (finding package v) ↔ Unreadable v := by
  unfold finding
  rw [fails_bind_iff, fails_members_iff]
  constructor
  · rintro (hshape | ⟨vulnerability, hmembers, hfails⟩)
    · exact .entry hshape
    · cases v with
      | object ms =>
        obtain rfl := Except.ok.inj hmembers
        rw [fails_bind_iff] at hfails
        rcases hfails with hfails | ⟨names, -, hfails⟩
        · exact fails_advisoryNames_iff.1 hfails
        · exact absurd hfails (not_fails_ok _)
      | _ => cases hmembers
  · intro hunreadable
    cases v with
    | object vulnerability =>
      refine .inr ⟨vulnerability, rfl, ?_⟩
      rw [fails_bind_iff]
      exact .inl (fails_advisoryNames_iff.2 hunreadable)
    | _ => exact .inl (by simp)

theorem findings_of_absent (h : present? (payload.get? "vulnerabilities") = none) :
    findings (.object payload) = .ok [] := by
  have hpayload : members (.object payload) = .ok payload := rfl
  simp only [findings, hpayload, bind, Except.bind, h]
  rfl

theorem findings_of_present (h : present? (payload.get? "vulnerabilities") = some v) :
    findings (.object payload) = members v >>= fun packages =>
      packages.mapM fun entry => finding entry.1 entry.2 := by
  have hpayload : members (.object payload) = .ok payload := rfl
  simp only [findings, hpayload, bind, Except.bind, h]

/-- **The output ends in a fault exactly if it has packages of the wrong shape.** -/
theorem fails_findings_iff : Fails (findings (.object payload)) ↔ Malformed payload := by
  constructor
  · intro hfails
    cases hpackages : present? (payload.get? "vulnerabilities") with
    | none =>
      rw [findings_of_absent hpackages] at hfails
      exact absurd hfails (not_fails_ok _)
    | some v =>
      rw [findings_of_present hpackages, fails_bind_iff, fails_members_iff] at hfails
      rcases hfails with hshape | ⟨packages, hmembers, hfails⟩
      · exact .packages hpackages hshape
      · obtain ⟨entry, hentry, hfails⟩ := fails_mapM_iff.1 hfails
        obtain rfl := eq_object_of_members hmembers
        exact .entry hpackages hentry (fails_finding_iff.1 hfails)
  · intro hmalformed
    cases hmalformed with
    | packages present shape =>
      rw [findings_of_present present, fails_bind_iff]
      exact .inl (fails_members_iff.2 shape)
    | entry present mem unreadable =>
      rw [findings_of_present present, fails_bind_iff]
      exact .inr ⟨_, rfl, fails_mapM_iff.2 ⟨_, mem, fails_finding_iff.2 unreadable⟩⟩

/-! ## Findings -/

/-- What a finding says about a vulnerable package. -/
structure Reports (package : LooseText) (vulnerability : Json.Members) (f : Finding) : Prop where
  scanner : f.scanner = .deps
  location : f.location = .file "package.json"
  title : f.title = ("Vulnerable dependency: " ++ package : LooseText).plain
  severity : f.severity =
    severity (((vulnerability.get? "severity").map Json.spoken).getD "").plain
  description : ∃ names, advisoryNames (vulnerability.get? "via") = .ok names ∧
    f.description = (package ++ " has a " ++
      ((vulnerability.get? "severity").map Json.spoken).getD "" ++
      " severity vulnerability. Via: " ++
      (if (LooseText.join ", " names).isEmpty then .ofString "transitive"
        else LooseText.join ", " names) : LooseText).plain
  remediation : f.remediation =
    some (advice (present? (vulnerability.get? "fixAvailable")).isSome)

/-- The finding of an entry is about its package. -/
theorem reports_of_finding {f : Finding} (h : finding package v = .ok f) :
    ∃ vulnerability, v = .object vulnerability ∧ Reports package vulnerability f := by
  obtain ⟨vulnerability, hmembers, h⟩ := exists_ok_of_bind h
  obtain ⟨names, hnames, h⟩ := exists_ok_of_bind h
  obtain rfl := Except.ok.inj h
  refine ⟨vulnerability, eq_object_of_members hmembers, rfl, rfl, rfl, ?_, ⟨names, hnames, ?_⟩, rfl⟩
  all_goals dsimp only

/-- The vulnerable packages that the output names. -/
def packages (payload : Json.Members) : Json.Members :=
  match present? (payload.get? "vulnerabilities") with
  | some (.object packages) => packages
  | _ => []

/-- **One finding for each entry, in order.** -/
theorem forall₂_findings {found : List Finding} (h : findings (.object payload) = .ok found) :
    List.Forall₂ (fun entry f => ∃ vulnerability, entry.2 = .object vulnerability ∧
      Reports entry.1 vulnerability f) (packages payload) found := by
  unfold packages
  cases hpackages : present? (payload.get? "vulnerabilities") with
  | none =>
    rw [findings_of_absent hpackages] at h
    obtain rfl := Except.ok.inj h
    exact .nil
  | some v =>
    rw [findings_of_present hpackages] at h
    obtain ⟨entries, hmembers, h⟩ := exists_ok_of_bind h
    obtain rfl := eq_object_of_members hmembers
    exact (forall₂_of_mapM h).imp fun entry f hentry => reports_of_finding hentry

end Audit

/-! ## What is printed -/

variable {m : Machine} {project : Path} {text : String}

theorem scanDependencies_of_none
    (hfile : m.disk.exists? (project.below "package.json") = .ok true)
    (houtput : Audit.output? m.auditTool = .ok none) : scanDependencies m project = .ok [] := by
  simp only [scanDependencies, hfile, houtput, bind, Except.bind, if_true]
  rfl

theorem scanDependencies_of_some {output : Json LooseText}
    (hfile : m.disk.exists? (project.below "package.json") = .ok true)
    (houtput : Audit.output? m.auditTool = .ok (some output)) :
    scanDependencies m project = Audit.findings output := by
  simp only [scanDependencies, hfile, houtput, bind, Except.bind, if_true]

theorem fails_scanDependencies
    (hfile : m.disk.exists? (project.below "package.json") = .ok true)
    (houtput : Fails (Audit.output? m.auditTool)) : Fails (scanDependencies m project) := by
  obtain ⟨fault, houtput⟩ := houtput
  exact ⟨fault, by simp only [scanDependencies, hfile, houtput, bind, Except.bind, if_true]⟩

namespace Audit

theorem output?_malformed (h : Json.parse .foreign text.toList = .error .malformed) :
    output? (.prints text) = .ok none := by
  simp only [output?, Json.ofForeign?, h, Json.ReadError.fault?, bind, Except.bind]
  rfl

theorem output?_object {payload : Json.Members}
    (h : Json.parse .foreign text.toList = .ok (.object payload)) :
    output? (.prints text) = .ok (some (.object payload)) := by
  simp only [output?, Json.ofForeign?, h, bind, Except.bind]
  rfl

theorem output?_other {v : Json LooseText} (h : Json.parse .foreign text.toList = .ok v)
    (hv : ∀ payload, v ≠ .object payload) : output? (.prints text) = .ok none := by
  simp only [output?, Json.ofForeign?, h, bind, Except.bind]
  cases v with
  | object payload => exact absurd rfl (hv payload)
  | _ => rfl

theorem fails_output?_of_bounds {e : Json.ReadError}
    (h : Json.parse .foreign text.toList = .error e) (he : e ≠ .malformed) :
    Fails (output? (.prints text)) := by
  obtain ⟨fault, hfault⟩ : ∃ fault, e.fault? = some fault := by
    cases e with
    | malformed => exact absurd rfl he
    | tooDeep array => cases array <;> exact ⟨_, rfl⟩
    | tooManyDigits digits => exact ⟨_, rfl⟩
  exact ⟨fault, by simp only [output?, Json.ofForeign?, h, hfault, bind, Except.bind]⟩

end Audit

/-- A text that goes beyond the bounds of the reader is a long one. -/
theorem Json.long_of_parse_error {s : List Char} {e : ReadError}
    (h : parse .foreign s = .error e) (he : e ≠ .malformed) :
    985 < openings s ∨
      ∃ run, run <:+: s ∧ (∀ c ∈ run, Text.Decimal.isDigit c = true) ∧ 4300 < run.length := by
  cases e with
  | malformed => exact absurd rfl he
  | tooDeep array => exact .inl (of_parse_tooDeep h)
  | tooManyDigits digits =>
    obtain ⟨hlong, run, hinside, rfl, hdigits⟩ := of_parse_tooManyDigits h
    exact .inr ⟨run, hinside, hdigits, hlong⟩

/-- **What comes of every text that the audit tool prints.** A text that is no JSON, or whose value
is no object, gives no findings. An object whose packages all have the right shape gives one finding
for each, in order. There is a fault, and no finding at all, exactly for the other objects, and for
texts beyond the bounds of the reader: these open more than 985 arrays and objects or have more than
4300 digits in a row. -/
theorem scanDependencies_of_prints
    (hfile : m.disk.exists? (project.below "package.json") = .ok true)
    (htool : m.auditTool = .prints text) :
    (Json.parse .foreign text.toList = .error .malformed → scanDependencies m project = .ok []) ∧
    (∀ v, Json.parse .foreign text.toList = .ok v → (∀ payload, v ≠ .object payload) →
      scanDependencies m project = .ok []) ∧
    (∀ payload, Json.parse .foreign text.toList = .ok (.object payload) →
      (Fails (scanDependencies m project) ↔ Audit.Malformed payload) ∧
      (¬Audit.Malformed payload → ∃ found, scanDependencies m project = .ok found ∧
        List.Forall₂ (fun entry f => ∃ vulnerability, entry.2 = .object vulnerability ∧
          Audit.Reports entry.1 vulnerability f) (Audit.packages payload) found)) ∧
    (∀ e, Json.parse .foreign text.toList = .error e → e ≠ .malformed →
      Fails (scanDependencies m project) ∧
      (985 < Json.openings text.toList ∨ ∃ run, run <:+: text.toList ∧
        (∀ c ∈ run, Text.Decimal.isDigit c = true) ∧ 4300 < run.length)) := by
  refine ⟨fun h => ?_, fun v h hv => ?_, fun payload h => ?_, fun e h he => ?_⟩
  · exact scanDependencies_of_none hfile (htool ▸ Audit.output?_malformed h)
  · exact scanDependencies_of_none hfile (htool ▸ Audit.output?_other h hv)
  · rw [scanDependencies_of_some hfile (htool ▸ Audit.output?_object h), Audit.fails_findings_iff]
    refine ⟨Iff.rfl, fun hshape => ?_⟩
    cases hfindings : Audit.findings (.object payload) with
    | error fault => exact absurd (Audit.fails_findings_iff.1 ⟨fault, hfindings⟩) hshape
    | ok found => exact ⟨found, rfl, Audit.forall₂_findings hfindings⟩
  · exact ⟨fails_scanDependencies hfile (htool ▸ Audit.fails_output?_of_bounds h he),
      Json.long_of_parse_error h he⟩

/-- A tool that names one package and says nothing about it. -/
theorem scanDependencies_of_prints_package :
    ∃ f, scanDependencies (auditedMachine (.prints onePackage)) ⟨.root, []⟩ = .ok [f] ∧
      f.title = "Vulnerable dependency: p" ∧ f.severity = .info := by
  have hparse : Json.parse .foreign onePackage.toList =
      .ok (.object [(.ofString "vulnerabilities", .object [(.ofString "p", .object [])])]) := by
    cbv
  have hpackages : Audit.present? (Json.Members.get? [(.ofString "vulnerabilities",
      .object [(.ofString "p", .object [])])] "vulnerabilities") =
      some (.object [(.ofString "p", .object [])]) := by cbv
  have hvia : Audit.present? (Json.Members.get? [] "via") = none := rfl
  -- The one package has no `via`, which counts as an empty list of advisories.
  have hshape : ¬Audit.Malformed
      [(.ofString "vulnerabilities", .object [(.ofString "p", .object [])])] := by
    intro hmalformed
    cases hmalformed with
    | packages present shape => exact shape _ (Option.some.inj (hpackages.symm.trans present)).symm
    | entry present mem unreadable =>
      obtain rfl := Json.object.inj (Option.some.inj (hpackages.symm.trans present))
      obtain rfl := List.mem_singleton.1 mem
      rw [← Audit.fails_advisoryNames_iff, Audit.advisoryNames_of_absent hvia] at unreadable
      exact not_fails_ok _ unreadable
  have hfile : (auditedMachine (.prints onePackage)).disk.exists?
      (Path.below ⟨.root, []⟩ "package.json") = .ok true := rfl
  obtain ⟨-, -, hobject, -⟩ := scanDependencies_of_prints hfile rfl
  obtain ⟨found, hscan, hfound⟩ := (hobject _ hparse).2 hshape
  rw [Audit.packages, hpackages] at hfound
  cases hfound with
  | cons hfirst hrest =>
    cases hrest
    obtain ⟨vulnerability, heq, hreports⟩ := hfirst
    obtain rfl := Json.object.inj heq
    refine ⟨_, hscan, hreports.title.trans ?_, hreports.severity.trans ?_⟩
    · cbv
    · cbv

/-- One entry that is no object costs the finding of the other. -/
theorem scanDependencies_one_bad_entry :
    scanDependencies (auditedMachine
      (.prints "\x7b\"vulnerabilities\":\x7b\"p\":\x7b\x7d,\"q\":5\x7d\x7d")) ⟨.root, []⟩ =
        .error .noMembers := by
  decide +kernel

end WorkspaceAudit
