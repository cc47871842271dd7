import WorkspaceAudit.Workspace.Machine

/-!
# Runs of actions

- `run_bind_ok`, `run_bind_error`: a step that is done, and one that ends in a fault.
- `exists_run_of_bind`, `exists_ok_of_bind`, `exists_of_mem_mapM`, `exists_mapM`: steps that give
  results.
- `Action.inspect_run_ok`, `Action.change_run_ok`, `Action.makeFolders_run` and so on: the runs of
  the steps that actions are made of.
-/

namespace WorkspaceAudit

section Steps

variable {ε σ α β : Type} {x : ExceptT ε (StateM σ) α} {f : α → ExceptT ε (StateM σ) β} {s t : σ}

theorem run_bind_ok {a : α} (h : x.run s = (.ok a, t)) : (x >>= f).run s = (f a).run t := by
  rw [ExceptT.run_bind]
  simp only [bind, StateT.bind, h]

/-- What has been changed before a fault stays. -/
theorem run_bind_error {e : ε} (h : x.run s = (.error e, t)) :
    (x >>= f).run s = (.error e, t) := by
  rw [ExceptT.run_bind]
  simp only [bind, StateT.bind, h]
  rfl

/-- Two steps that are done are done one after the other. -/
theorem exists_run_of_bind {b : β} (h : (x >>= f).run s = (.ok b, t)) :
    ∃ a u, x.run s = (.ok a, u) ∧ (f a).run u = (.ok b, t) := by
  rcases hrun : x.run s with ⟨e | a, u⟩
  · rw [run_bind_error hrun] at h
    cases h
  · rw [run_bind_ok hrun] at h
    exact ⟨a, u, rfl, h⟩

theorem run_get (s : σ) : (get : ExceptT ε (StateM σ) σ).run s = (.ok s, s) := rfl

theorem run_pure (a : α) (s : σ) : (pure a : ExceptT ε (StateM σ) α).run s = (.ok a, s) := rfl

end Steps

section Results

variable {α β ε : Type}

/-- Two steps that give a result give one each. -/
theorem exists_ok_of_bind {x : Except ε α} {g : α → Except ε β} {b : β}
    (h : x >>= g = .ok b) : ∃ a, x = .ok a ∧ g a = .ok b := by
  cases x with
  | error e => cases h
  | ok a => exact ⟨a, rfl, h⟩

/-- What comes out of steps that all give a result comes out of one of them. -/
theorem exists_of_mem_mapM {g : α → Except ε β} {xs : List α} {ys : List β} {y : β}
    (h : xs.mapM g = .ok ys) (hy : y ∈ ys) : ∃ x ∈ xs, g x = .ok y := by
  induction xs generalizing ys with
  | nil =>
    obtain rfl := Except.ok.inj h
    cases hy
  | cons x xs ih =>
    rw [List.mapM_cons] at h
    obtain ⟨z, hz, h⟩ := exists_ok_of_bind h
    obtain ⟨zs, hzs, h⟩ := exists_ok_of_bind h
    obtain rfl := Except.ok.inj h
    rcases List.mem_cons.1 hy with rfl | hy
    · exact ⟨x, List.mem_cons_self, hz⟩
    · obtain ⟨other, hother, hg⟩ := ih hzs hy
      exact ⟨other, List.mem_cons_of_mem x hother, hg⟩

/-- Steps that all give a result give them together. -/
theorem exists_mapM {γ : Type} {g : α → Except ε β} {k : β → γ} {l : α → γ} {xs : List α}
    (h : ∀ x ∈ xs, ∃ y, g x = .ok y ∧ k y = l x) :
    ∃ ys, xs.mapM g = .ok ys ∧ ys.map k = xs.map l := by
  induction xs with
  | nil => exact ⟨[], rfl, rfl⟩
  | cons x xs ih =>
    obtain ⟨⟨y, hy, hfirst⟩, hmore⟩ := List.forall_mem_cons.1 h
    obtain ⟨ys, hys, hothers⟩ := ih hmore
    refine ⟨y :: ys, ?_, ?_⟩
    · rw [List.mapM_cons, hy, hys]
      rfl
    · rw [List.map_cons, List.map_cons, hfirst, hothers]

theorem mapM_congr {f g : α → Except ε β} {xs : List α} (h : ∀ x ∈ xs, f x = g x) :
    xs.mapM f = xs.mapM g := by
  induction xs with
  | nil => rfl
  | cons x xs ih =>
    obtain ⟨hx, hxs⟩ := List.forall_mem_cons.1 h
    rw [List.mapM_cons, List.mapM_cons, hx, ih hxs]

theorem anyM_congr {f g : α → Except ε Bool} {xs : List α} (h : ∀ x ∈ xs, f x = g x) :
    xs.anyM f = xs.anyM g := by
  induction xs with
  | nil => rfl
  | cons x xs ih =>
    obtain ⟨hx, hxs⟩ := List.forall_mem_cons.1 h
    rw [List.anyM_cons, List.anyM_cons, hx, ih hxs]

end Results

namespace Action

variable {m : Machine} {fault : Fault} {p : Path}

theorem inspect_run_ok {α : Type} {f : Machine → Except Fault α} {a : α} (h : f m = .ok a) :
    (inspect f).run m = (.ok a, m) := by
  unfold inspect
  rw [run_bind_ok (run_get m), h]
  rfl

theorem inspect_run_error {α : Type} {f : Machine → Except Fault α} (h : f m = .error fault) :
    (inspect f).run m = (.error fault, m) := by
  unfold inspect
  rw [run_bind_ok (run_get m), h]
  rfl

theorem inspect_run {α : Type} (f : Machine → Except Fault α) (m : Machine) :
    (inspect f).run m = (f m, m) := by
  cases h : f m with
  | ok a => exact inspect_run_ok h
  | error fault => exact inspect_run_error h

theorem change_run_ok {f : Disk → Except Fault Disk} {d : Disk} (h : f m.disk = .ok d) :
    (change f).run m = (.ok (), { m with disk := d }) := by
  unfold change
  rw [run_bind_ok (run_get m), h]
  rfl

theorem change_run_error {f : Disk → Except Fault Disk} (h : f m.disk = .error fault) :
    (change f).run m = (.error fault, m) := by
  unfold change
  rw [run_bind_ok (run_get m), h]
  rfl

theorem makeFolders_run {outcome : Except Fault Unit} {d : Disk}
    (h : m.disk.makeFolders p = (outcome, d)) :
    (makeFolders p).run m = (outcome, { m with disk := d }) := by
  unfold makeFolders
  rw [run_bind_ok (run_get m), h]
  cases outcome <;> rfl

end Action

end WorkspaceAudit
