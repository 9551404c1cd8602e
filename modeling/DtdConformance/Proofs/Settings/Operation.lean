import DtdConformance.Settings.Manager

/-! # What operations leave behind

A settings file that is refused leaves the manager as it was: all that can be refused stands before
the first change. When the environment is read again its settings are in force before the file is
opened, so they stay when the file is refused.
-/
namespace DtdConformance.Settings
set_option autoImplicit false

open Data (Value)
open Files

namespace Operation

variable {α β : Type} {manager left : Manager} {fault : Fault}

/-! ## Running an operation -/

theorem on_get (manager : Manager) :
    (get : Operation Manager).on manager = (.ok manager, manager) := rfl

theorem on_modify (f : Manager → Manager) (manager : Manager) :
    (modify f : Operation Unit).on manager = (.ok (), f manager) := rfl

theorem on_ofExcept (outcome : Except Fault α) (manager : Manager) :
    (MonadExcept.ofExcept outcome : Operation α).on manager = (outcome, manager) := by
  cases outcome <;> rfl

theorem on_bind (first : Operation α) (next : α → Operation β) (manager : Manager) :
    (first >>= next).on manager =
      match first.on manager with
      | (.ok a, left) => (next a).on left
      | (.error fault, left) => (.error fault, left) := by
  unfold on
  simp only [ExceptT.run_bind, StateT.run_bind]
  cases StateT.run (ExceptT.run first) manager with
  | mk outcome left => cases outcome <;> rfl

/-! ## The operations of a manager -/

theorem on_load (snapshot : Snapshot) (path : Path) (manager : Manager) :
    (load snapshot path).on manager =
      match (fileEntries snapshot path).bind manager.settings.update with
      | .ok settings => (.ok (), ⟨settings, some path⟩)
      | .error fault => (.error fault, manager) := by
  simp only [load, on_bind, on_ofExcept, on_get, on_modify]
  cases fileEntries snapshot path with
  | error fault => rfl
  | ok entries =>
    simp only [Except.bind]
    cases manager.settings.update entries <;> rfl

theorem on_update (overrides : List (Value × Value)) (manager : Manager) :
    (update overrides).on manager =
      match manager.settings.update overrides with
      | .ok settings => (.ok (), { manager with settings })
      | .error fault => (.error fault, manager) := by
  simp only [update, on_bind, on_ofExcept, on_get, on_modify]
  cases manager.settings.update overrides <;> rfl

theorem on_reload (environment : Environment) (snapshot : Snapshot) (manager : Manager) :
    (reload environment snapshot).on manager =
      match ofEnvironment environment with
      | .error fault => (.error fault, manager)
      | .ok settings =>
        match manager.path with
        | none => (.ok (), { manager with settings })
        | some path => (load snapshot path).on { manager with settings } := by
  obtain ⟨current, path?⟩ := manager
  simp only [reload, on_bind, on_ofExcept, on_get, on_modify]
  cases ofEnvironment environment with
  | error fault => rfl
  | ok settings => cases path? <;> rfl

end Operation

namespace Manager

variable {snapshot : Snapshot} {manager left : Manager} {fault : Fault} {path : Path}

theorem load_eq (snapshot : Snapshot) (manager : Manager) (path : Path) :
    manager.load snapshot path =
      ((fileEntries snapshot path).bind manager.settings.update).map fun settings =>
        ⟨settings, some path⟩ := by
  rw [load, after, Operation.on_load]
  cases (fileEntries snapshot path).bind manager.settings.update <;> rfl

/-- A settings file that is refused leaves the manager as it was. -/
theorem on_load_eq_error_iff :
    (Operation.load snapshot path).on manager = (.error fault, left) ↔
      manager.load snapshot path = .error fault ∧ left = manager := by
  rw [load_eq, Operation.on_load]
  cases (fileEntries snapshot path).bind manager.settings.update with
  | error other => simp [Except.map, eq_comm]
  | ok settings => simp [Except.map]

/-- Reading again fails at the environment, with the manager as it was, or at the file, with the
settings of the environment in force. -/
theorem reload_eq_error_iff {environment : Environment} :
    manager.reload environment snapshot = (.error fault, left) ↔
      ofEnvironment environment = .error fault ∧ left = manager ∨
        ∃ settings path, ofEnvironment environment = .ok settings ∧ manager.path = some path ∧
          left = { manager with settings } ∧ left.load snapshot path = .error fault := by
  rw [reload, Operation.on_reload]
  cases hEnvironment : ofEnvironment environment with
  | error other => simp [eq_comm]
  | ok settings =>
    cases hPath : manager.path with
    | none => simp
    | some path =>
      simp only [on_load_eq_error_iff]
      constructor
      · rintro ⟨hLoad, rfl⟩
        exact .inr ⟨settings, path, rfl, rfl, rfl, hLoad⟩
      · rintro (⟨hNone, -⟩ | ⟨_, _, hSettings, hPath, rfl, hLoad⟩)
        · cases hNone
        · cases hSettings
          cases hPath
          exact ⟨hLoad, rfl⟩

end Manager

end DtdConformance.Settings
