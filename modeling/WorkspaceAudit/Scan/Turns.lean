/-!
# Taking turns

Several jobs run side by side. A job lets the others go first a number of times and then leaves its
outcome in its own slot, so that the outcomes stand in the order of the jobs whatever job is done
first.
-/

namespace WorkspaceAudit

/-- The slot of a job: how often it still lets others go first, or its outcome. -/
inductive Slot (α : Type) where
  | waiting (turns : Nat) (outcome : α)
  | done (outcome : α)
  deriving Repr, DecidableEq

namespace Slot

variable {α : Type}

/-- The slot after a turn of its job. -/
def advance : Slot α → Slot α
  | .waiting (turns + 1) outcome => .waiting turns outcome
  | .waiting 0 outcome => .done outcome
  | .done outcome => .done outcome

/-- The outcome of a job that is done. -/
def outcome? : Slot α → Option α
  | .done outcome => some outcome
  | .waiting .. => none

/-- The turns that a job still waits. -/
def turns : Slot α → Nat
  | .waiting turns _ => turns
  | .done _ => 0

/-- The slots after turns of the jobs with these indices. -/
def afterTurns (schedule : List Nat) (slots : List (Slot α)) : List (Slot α) :=
  schedule.foldl (fun slots i => slots.modify i advance) slots

/-- Rounds in which every job has a turn, as many as the slowest job needs. -/
def rounds (slots : List (Slot α)) : List Nat :=
  let slowest := slots.foldl (fun most slot => max most slot.turns) 0
  (List.replicate (slowest + 1) (List.range slots.length)).flatten

/-- The outcomes of the jobs that are done, in the order of the jobs. -/
def outcomes (slots : List (Slot α)) : List α :=
  slots.filterMap outcome?

/-- The outcomes of all jobs, in the order of the jobs. -/
def runAll (slots : List (Slot α)) : List α :=
  outcomes (afterTurns (rounds slots) slots)

end Slot

end WorkspaceAudit
