import WorkspaceAudit.Proofs.Workspace.Actions
import WorkspaceAudit.Scan.Project
import Mathlib.Logic.Function.Iterate

/-!
# Merging what scanners find

Scanners take turns in any order. What they find is put together by their places in the list, so
neither that order nor the scanners that fail can be seen in the result.

- `Slot.getElem?_afterTurns`: a job sees its own turns only.
- `Slot.completions`: the order in which jobs get done; `Slot.exists_completions_eq`: it can be any
  order, `Slot.outcomes_of_completions`: and the outcomes are the same for all of them.
- `gather_eq`: the findings of scanners, told without turns.
- `scanProject_run`: a scan of a project step by step.
- `merged_eq_returned`: the findings of scanners and the report on them, whatever the order in
  which the scanners get done and whichever of them fail.
-/

namespace WorkspaceAudit

namespace Slot

variable {α : Type} {slot : Slot α} {slots : List (Slot α)} {schedule : List Nat} {i : Nat}

/-! ## Turns of one job -/

/-- The outcome that a job has or is going to have. -/
def result : Slot α → α
  | .waiting _ outcome => outcome
  | .done outcome => outcome

/-- The turns that a job needs until it is done. -/
def need : Slot α → Nat
  | .waiting turns _ => turns + 1
  | .done _ => 0

@[simp] theorem result_advance (slot : Slot α) : slot.advance.result = slot.result := by
  rcases slot with ⟨_ | turns, outcome⟩ | outcome <;> rfl

@[simp] theorem need_advance (slot : Slot α) : slot.advance.need = slot.need - 1 := by
  rcases slot with ⟨_ | turns, outcome⟩ | outcome <;> rfl

theorem outcome?_of_need (h : slot.need = 0) : slot.outcome? = some slot.result := by
  cases slot with
  | waiting turns outcome => cases h
  | done outcome => rfl

@[simp] theorem result_iterate (n : Nat) (slot : Slot α) :
    (advance^[n] slot).result = slot.result := by
  induction n generalizing slot with
  | zero => rfl
  | succ n ih => rw [Function.iterate_succ_apply, ih, result_advance]

@[simp] theorem need_iterate (n : Nat) (slot : Slot α) :
    (advance^[n] slot).need = slot.need - n := by
  induction n generalizing slot with
  | zero => rfl
  | succ n ih => rw [Function.iterate_succ_apply, ih, need_advance, Nat.sub_sub, Nat.add_comm]

/-! ## Turns of all jobs -/

theorem afterTurns_cons (i : Nat) (schedule : List Nat) (slots : List (Slot α)) :
    afterTurns (i :: schedule) slots = afterTurns schedule (slots.modify i advance) := rfl

/-- **A job sees its own turns only**, however they are mixed with those of others. -/
theorem getElem?_afterTurns (schedule : List Nat) (slots : List (Slot α)) (i : Nat) :
    (afterTurns schedule slots)[i]? = slots[i]?.map (advance^[schedule.count i]) := by
  induction schedule generalizing slots with
  | nil => simp [afterTurns]
  | cons j schedule ih =>
    rw [afterTurns_cons, ih]
    by_cases h : j = i
    · subst h
      simp [Function.iterate_succ]
    · simp [h]

theorem length_afterTurns (schedule : List Nat) (slots : List (Slot α)) :
    (afterTurns schedule slots).length = slots.length := by
  induction schedule generalizing slots with
  | nil => rfl
  | cons j schedule ih => rw [afterTurns_cons, ih, List.length_modify]

theorem map_result_afterTurns (schedule : List Nat) (slots : List (Slot α)) :
    (afterTurns schedule slots).map result = slots.map result := by
  refine List.ext_getElem? fun i => ?_
  simp only [List.getElem?_map, getElem?_afterTurns, Option.map_map]
  congr 1
  funext slot
  simp

/-- The outcomes of jobs that are all done. -/
theorem outcomes_eq_map_result (h : ∀ slot ∈ slots, slot.need = 0) :
    outcomes slots = slots.map result := by
  induction slots with
  | nil => rfl
  | cons slot slots ih =>
    obtain ⟨hslot, hslots⟩ := List.forall_mem_cons.1 h
    rw [outcomes, List.filterMap_cons_some (outcome?_of_need hslot), List.map_cons, ← ih hslots]
    rfl

/-! ## The order in which jobs get done -/

/-- The jobs that get done in the course of turns, in the order in which they do. -/
def completions : List Nat → List (Slot α) → List Nat
  | [], _ => []
  | i :: schedule, slots =>
    let later := completions schedule (slots.modify i advance)
    if slots[i]?.map need = some 1 then i :: later else later

/-- A job that gets done in the course of turns is done after them. -/
theorem need_of_mem_completions (h : i ∈ completions schedule slots) :
    (afterTurns schedule slots)[i]?.map need = some 0 := by
  induction schedule generalizing slots with
  | nil => cases h
  | cons j schedule ih =>
    rw [afterTurns_cons]
    simp only [completions] at h
    split at h
    · rename_i hlast
      rcases List.mem_cons.1 h with rfl | h
      · obtain ⟨slot, hslot, hneed⟩ := Option.map_eq_some_iff.1 hlast
        simp [getElem?_afterTurns, hslot, hneed]
      · exact ih h
    · exact ih h

/-- **The outcomes do not depend on the order in which jobs get done.** -/
theorem outcomes_of_completions (h : (completions schedule slots).Perm (List.range slots.length)) :
    outcomes (afterTurns schedule slots) = slots.map result := by
  rw [outcomes_eq_map_result, map_result_afterTurns]
  intro slot hslot
  obtain ⟨i, hi⟩ := List.mem_iff_getElem?.1 hslot
  have hlt : i < slots.length := by
    rw [← length_afterTurns schedule]
    exact (List.getElem?_eq_some_iff.1 hi).1
  have hdone := need_of_mem_completions (h.mem_iff.2 (List.mem_range.2 hlt))
  simpa [hi] using hdone

theorem completions_append (first second : List Nat) (slots : List (Slot α)) :
    completions (first ++ second) slots =
      completions first slots ++ completions second (afterTurns first slots) := by
  induction first generalizing slots with
  | nil => rfl
  | cons j first ih =>
    simp only [List.cons_append, completions, afterTurns_cons, ih]
    split <;> rfl

/-- A job that has all its turns one after the other gets done, and no other job does. -/
theorem completions_replicate (h : slots[i]? = some slot) (hneed : slot.need ≠ 0) :
    completions (List.replicate slot.need i) slots = [i] := by
  obtain ⟨n, hn⟩ := Nat.exists_eq_succ_of_ne_zero hneed
  rw [hn]
  clear hneed
  induction n generalizing slot slots with
  | zero => simp [completions, h, hn]
  | succ n ih =>
    have hnext : (slots.modify i advance)[i]? = some slot.advance := by simp [h]
    have hlater : slot.advance.need = n.succ := by simp [hn]
    rw [List.replicate_succ, completions]
    simp [h, hn, ih hnext hlater]

/-- **Jobs can get done in any order.** -/
theorem exists_completions_eq {order : List Nat} (hnodup : order.Nodup)
    (hwaiting : ∀ i ∈ order, ∃ slot, slots[i]? = some slot ∧ slot.need ≠ 0) :
    ∃ schedule, completions schedule slots = order := by
  -- The jobs have all their turns one after the other, in the order in which they are to get done.
  induction order generalizing slots with
  | nil => exact ⟨[], rfl⟩
  | cons i order ih =>
    obtain ⟨hi, hnodup⟩ := List.nodup_cons.1 hnodup
    obtain ⟨⟨slot, hslot, hneed⟩, hwaiting⟩ := List.forall_mem_cons.1 hwaiting
    have hothers : ∀ j ∈ order, ∃ other,
        (afterTurns (List.replicate slot.need i) slots)[j]? = some other ∧ other.need ≠ 0 := by
      intro j hj
      have hne : i ≠ j := fun h => hi (h ▸ hj)
      obtain ⟨other, hother, hwait⟩ := hwaiting j hj
      refine ⟨other, ?_, hwait⟩
      simp [getElem?_afterTurns, hother, List.count_replicate, hne]
    obtain ⟨schedule, hschedule⟩ := ih hnodup hothers
    refine ⟨List.replicate slot.need i ++ schedule, ?_⟩
    rw [completions_append, completions_replicate hslot hneed, hschedule]
    rfl

/-! ## Rounds -/

theorem turns_le_foldl (slots : List (Slot α)) (most : Nat) :
    most ≤ slots.foldl (fun most slot => max most slot.turns) most ∧
      ∀ slot ∈ slots, slot.turns ≤ slots.foldl (fun most slot => max most slot.turns) most := by
  induction slots generalizing most with
  | nil => exact ⟨Nat.le_refl most, fun slot h => nomatch h⟩
  | cons first slots ih =>
    obtain ⟨hmost, hslots⟩ := ih (max most first.turns)
    refine ⟨Nat.le_trans (Nat.le_max_left _ _) hmost, List.forall_mem_cons.2 ⟨?_, hslots⟩⟩
    exact Nat.le_trans (Nat.le_max_right _ _) hmost

theorem count_rounds (k : Nat) (h : i < slots.length) :
    (List.replicate k (List.range slots.length)).flatten.count i = k := by
  have hone : (List.range slots.length).count i = 1 := by
    rw [List.nodup_range.count, if_pos (List.mem_range.2 h)]
  induction k with
  | zero => rfl
  | succ k ih => rw [List.replicate_succ, List.flatten_cons, List.count_append, ih, hone,
      Nat.add_comm]

theorem need_le_turns (slot : Slot α) : slot.need ≤ slot.turns + 1 := by
  cases slot <;> simp [need, turns]

theorem need_afterRounds (h : slot ∈ afterTurns (rounds slots) slots) : slot.need = 0 := by
  obtain ⟨i, hi⟩ := List.mem_iff_getElem?.1 h
  rw [getElem?_afterTurns] at hi
  obtain ⟨before, hbefore, rfl⟩ := Option.map_eq_some_iff.1 hi
  obtain ⟨hlt, -⟩ := List.getElem?_eq_some_iff.1 hbefore
  have hturns := (turns_le_foldl slots 0).2 before (List.mem_of_getElem? hbefore)
  have hneed := need_le_turns before
  rw [need_iterate, rounds, count_rounds _ hlt]
  omega

/-- In rounds all jobs get done. -/
theorem runAll_eq (slots : List (Slot α)) : runAll slots = slots.map result := by
  rw [runAll, outcomes_eq_map_result fun slot => need_afterRounds, map_result_afterTurns]

end Slot

/-! ## Findings of scanners -/

namespace ProjectScanner

/-- The scanner gives findings, and does not fail. -/
def returns (m : Machine) (root : Path) (scanner : ProjectScanner) : Bool :=
  (scanner.run m root).isOk

/-- The findings of the scanners that do not fail, scanner by scanner. -/
def returned (scanners : List ProjectScanner) (m : Machine) (root : Path) : List (List Finding) :=
  scanners.filterMap fun scanner => (scanner.run m root).toOption

/-- The jobs of scanners before their first turn. -/
def jobs (scanners : List ProjectScanner) (m : Machine) (root : Path) :
    List (Slot (Except Fault (List Finding))) :=
  scanners.map fun scanner => .waiting scanner.turns (scanner.run m root)

end ProjectScanner

open ProjectScanner

/-- What is put together of jobs that are done. -/
def merged (slots : List (Slot (Except Fault (List Finding)))) : List Finding :=
  (Slot.outcomes slots).flatMap findingsOf

variable {scanners others : List ProjectScanner} {m : Machine} {root project : Path}

theorem length_jobs (scanners : List ProjectScanner) (m : Machine) (root : Path) :
    (jobs scanners m root).length = scanners.length :=
  List.length_map _

theorem map_result_jobs (scanners : List ProjectScanner) (m : Machine) (root : Path) :
    (jobs scanners m root).map Slot.result = scanners.map fun scanner => scanner.run m root := by
  rw [jobs, List.map_map]
  rfl

/-- A scanner that fails adds nothing. -/
theorem flatMap_findingsOf_runs (scanners : List ProjectScanner) (m : Machine) (root : Path) :
    (scanners.map fun scanner => scanner.run m root).flatMap findingsOf =
      (returned scanners m root).flatten := by
  induction scanners with
  | nil => rfl
  | cons scanner scanners ih =>
    rw [List.map_cons, List.flatMap_cons, ih]
    simp only [returned, List.filterMap_cons]
    cases scanner.run m root <;> rfl

/-- **The findings of scanners** are those of the scanners that do not fail, one after the other. -/
theorem gather_eq (scanners : List ProjectScanner) (m : Machine) (root : Path) :
    gather scanners m root = (returned scanners m root).flatten := by
  have hrun : gather scanners m root =
      (Slot.runAll (jobs scanners m root)).flatMap findingsOf := rfl
  rw [hrun, Slot.runAll_eq, map_result_jobs, flatMap_findingsOf_runs]

/-- Jobs of scanners have findings by their places, whatever the order in which they get done. -/
theorem merged_afterTurns {schedule : List Nat}
    (h : (Slot.completions schedule (jobs scanners m root)).Perm (List.range scanners.length)) :
    merged (Slot.afterTurns schedule (jobs scanners m root)) =
      (returned scanners m root).flatten := by
  rw [← length_jobs scanners m root] at h
  rw [merged, Slot.outcomes_of_completions h, map_result_jobs, flatMap_findingsOf_runs]

/-- Scanners can get done in any order. -/
theorem exists_completions_jobs {order : List Nat}
    (h : order.Perm (List.range scanners.length)) (m : Machine) (root : Path) :
    ∃ schedule, Slot.completions schedule (jobs scanners m root) = order := by
  refine Slot.exists_completions_eq (h.nodup_iff.2 List.nodup_range) fun i hi => ?_
  have hlt : i < scanners.length := List.mem_range.1 (h.mem_iff.1 hi)
  refine ⟨.waiting scanners[i].turns (scanners[i].run m root), ?_, Nat.succ_ne_zero _⟩
  simp [jobs, hlt]

theorem returned_append (scanners others : List ProjectScanner) (m : Machine) (root : Path) :
    returned (scanners ++ others) m root = returned scanners m root ++ returned others m root :=
  List.filterMap_append

theorem returned_filter (scanners : List ProjectScanner) (m : Machine) (root : Path) :
    returned (scanners.filter (returns m root)) m root = returned scanners m root := by
  rw [returned, List.filterMap_filter, returned]
  congr 1
  funext scanner
  unfold returns
  cases scanner.run m root <;> rfl

/-! ## Scans of projects -/

/-- The next reading of the stopwatch. -/
def Machine.reading (m : Machine) : Reading :=
  (m.readings[m.taken % m.readings.length]?).getD .zero

/-- The machine after a reading of the stopwatch. -/
def Machine.afterReading (m : Machine) : Machine := { m with taken := m.taken + 1 }

theorem Action.readStopwatch_run (m : Machine) :
    readStopwatch.run m = (.ok m.reading, m.afterReading) := rfl

theorem scanProject_run_of_resolve_error {fault : Fault}
    (h : m.disk.resolve project = .error fault) :
    (scanProject scanners project).run m = (.error fault, m.afterReading) := by
  rw [scanProject, run_bind_ok (Action.readStopwatch_run m),
    run_bind_error (Action.inspect_run_error (m := m.afterReading) h)]

theorem scanProject_run_of_now_error {fault : Fault} (hroot : m.disk.resolve project = .ok root)
    (h : m.now = .error fault) :
    (scanProject scanners project).run m = (.error fault, m.afterReading) := by
  rw [scanProject, run_bind_ok (Action.readStopwatch_run m),
    run_bind_ok (Action.inspect_run_ok (m := m.afterReading) hroot), run_bind_ok (run_get _),
    run_bind_error (Action.inspect_run_error (m := m.afterReading) h)]

/-- **A scan of a project at a time that can be told.** The scanners run between the two readings of
the stopwatch. -/
theorem scanProject_run {now : Moment} (hroot : m.disk.resolve project = .ok root)
    (hnow : m.now = .ok now) :
    (scanProject scanners project).run m =
      (elapsedMs m.reading m.afterReading.reading >>=
        Report.ofFindings root now (gather scanners m.afterReading root),
        m.afterReading.afterReading) := by
  rw [scanProject, run_bind_ok (Action.readStopwatch_run m),
    run_bind_ok (Action.inspect_run_ok (m := m.afterReading) hroot), run_bind_ok (run_get _),
    run_bind_ok (Action.inspect_run_ok (m := m.afterReading) hnow),
    run_bind_ok (Action.readStopwatch_run m.afterReading)]
  exact Action.inspect_run _ _

/-- Scanners with the same findings give the same report. -/
theorem scanProject_run_congr
    (h : ∀ root, m.disk.resolve project = .ok root →
      gather scanners m.afterReading root = gather others m.afterReading root) :
    (scanProject scanners project).run m = (scanProject others project).run m := by
  cases hroot : m.disk.resolve project with
  | error fault =>
    rw [scanProject_run_of_resolve_error hroot, scanProject_run_of_resolve_error hroot]
  | ok root =>
    cases hnow : m.now with
    | error fault =>
      rw [scanProject_run_of_now_error hroot hnow, scanProject_run_of_now_error hroot hnow]
    | ok now => rw [scanProject_run hroot hnow, scanProject_run hroot hnow, h root hroot]

/-- Only the duration can be a fault of a report. -/
theorem Report.ofFindings_eq_error_iff {now : Moment} {findings : List Finding} {ms : Int}
    {fault : Fault} :
    ofFindings root now findings ms = .error fault ↔ ms < 0 ∧ fault = .backwards ms := by
  unfold ofFindings
  by_cases h : ms < 0 <;> simp [h, eq_comm]

/-- Whether a scan ends in a fault does not depend on its scanners. -/
theorem scanProject_error_iff {fault : Fault} :
    ((scanProject scanners project).run m).1 = .error fault ↔
      ((scanProject others project).run m).1 = .error fault := by
  -- The scanners come into it with the report only, and that fails or not by the duration.
  cases hroot : m.disk.resolve project with
  | error fault =>
    rw [scanProject_run_of_resolve_error hroot, scanProject_run_of_resolve_error hroot]
  | ok root =>
    cases hnow : m.now with
    | error fault =>
      rw [scanProject_run_of_now_error hroot hnow, scanProject_run_of_now_error hroot hnow]
    | ok now =>
      rw [scanProject_run hroot hnow, scanProject_run hroot hnow]
      cases elapsedMs m.reading m.afterReading.reading with
      | error cause =>
        have hbind (findings : List Finding) :
            (.error cause >>= Report.ofFindings root now findings) = .error cause := rfl
        rw [hbind, hbind]
      | ok ms =>
        have hbind (findings : List Finding) :
            (.ok ms >>= Report.ofFindings root now findings) =
              Report.ofFindings root now findings ms := rfl
        rw [hbind, hbind, Report.ofFindings_eq_error_iff, Report.ofFindings_eq_error_iff]

/-- **Neither turns nor failures are seen in the findings.** Scanners run side by side, the extra
ones behind those that are chosen. They can get done in any order, and in each order what is put
together are the findings of the scanners that do not fail, by their places in the list. So the
scanners that fail could have been left out, and the findings of the extra ones come last. The
report is the same without the scanners that fail, too, and no scanner makes a scan fail. -/
theorem merged_eq_returned (chosen : Option (List ProjectScanner))
    (extra : List ProjectScanner) :
    let scanners := selected chosen extra
    (∀ m root,
      (∀ order : List Nat, order.Perm (List.range scanners.length) →
        (∃ schedule, Slot.completions schedule (jobs scanners m root) = order) ∧
        ∀ schedule, Slot.completions schedule (jobs scanners m root) = order →
          merged (Slot.afterTurns schedule (jobs scanners m root)) =
            (returned scanners m root).flatten) ∧
      gather scanners m root = (returned scanners m root).flatten ∧
      gather (scanners.filter (returns m root)) m root = gather scanners m root ∧
      gather scanners m root = gather (chosen.getD standard) m root ++ gather extra m root) ∧
    ∀ m project,
      (∀ root, m.disk.resolve project = .ok root →
        (scanProject (scanners.filter (returns m.afterReading root)) project).run m =
          (scanProject scanners project).run m) ∧
      ∀ fault, ((scanProject scanners project).run m).1 = .error fault ↔
        ((scanProject [] project).run m).1 = .error fault := by
  intro scanners
  have hfilter (m : Machine) (root : Path) :
      gather (scanners.filter (returns m root)) m root = gather scanners m root := by
    rw [gather_eq, gather_eq, returned_filter]
  refine ⟨fun m root =>
      ⟨fun order horder => ⟨?_, ?_⟩, gather_eq scanners m root, hfilter m root, ?_⟩,
    fun m project => ⟨fun root hroot => ?_, fun fault => scanProject_error_iff⟩⟩
  · exact exists_completions_jobs horder m root
  · rintro schedule rfl
    exact merged_afterTurns horder
  · simp only [gather_eq, scanners, selected, returned_append, List.flatten_append]
  · refine scanProject_run_congr fun other hother => ?_
    obtain rfl := Except.ok.inj (hroot.symm.trans hother)
    exact hfilter m.afterReading root

/-- A machine with nothing on it. -/
def bareMachine : Machine where
  disk := { top := .emptyFolder, here := [] }
  environment := []
  clock := ⟨0, true⟩
  readings := []

/-- A scanner that lets others go first and then reports one finding, or fails. -/
def ProjectScanner.scripted (turns : Nat) (title : Option String) : ProjectScanner where
  name := "scripted"
  turns := turns
  run _ _ :=
    match title with
    | some title =>
      .ok [{ scanner := .threatModel, severity := .info, title := title, description := "" }]
    | none => .error (.failure "no answer")

/-- The last of three scanners gets done first, and the one in the middle fails. -/
theorem merged_scripted :
    let scanners := selected (some [scripted 2 (some "slow"), scripted 0 none])
      [scripted 0 (some "quick")]
    let schedule := [2, 0, 1, 0, 0]
    Slot.completions schedule (jobs scanners bareMachine ⟨.root, []⟩) = [2, 1, 0] ∧
      (merged (Slot.afterTurns schedule (jobs scanners bareMachine ⟨.root, []⟩))).map
        Finding.title = ["slow", "quick"] := by
  intro scanners schedule
  have horder : Slot.completions schedule (jobs scanners bareMachine ⟨.root, []⟩) = [2, 1, 0] := rfl
  obtain ⟨hall, -⟩ := merged_eq_returned (some [scripted 2 (some "slow"), scripted 0 none])
    [scripted 0 (some "quick")]
  obtain ⟨hmerged, -⟩ := hall bareMachine ⟨.root, []⟩
  obtain ⟨-, hany⟩ := hmerged [2, 1, 0] (by decide)
  exact ⟨horder, by rw [hany schedule horder]; rfl⟩

end WorkspaceAudit
