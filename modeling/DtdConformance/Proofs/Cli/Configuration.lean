import DtdConformance.Cli.Command
import DtdConformance.Proofs.Settings.Operation

/-! # Putting the settings of a command line in force

The settings of a command are those of the shared manager with a settings file and then the words of
the command line laid over them. The file is refused before anything is changed. The final check
comes when the settings are in force, so settings that it refuses stay.
-/
namespace DtdConformance.Cli
set_option autoImplicit false

open Settings (Environment Snapshot Manager Operation ofEnvironment)

/-- The manager that a command asks for: the shared one, or a new one with the settings of the
environment. -/
def asked (world : World) (shared : Option Manager) : Except Settings.Fault Manager :=
  shared.elim (Manager.new world.environment world.snapshot "") .ok

/-- A manager with the settings file of a command line laid over it. -/
def laidOver (world : World) (options : Options) (manager : Manager) :
    Except Settings.Fault Manager :=
  let path := options.settings.getD ""
  if path.isEmpty then .ok manager else manager.load world.snapshot (.ofText path)

/-- A manager with the settings that the words of a command line ask for. -/
def commanded (options : Options) (manager : Manager) : Manager :=
  { manager with
    settings.logLevel := options.logLevel.getD manager.settings.logLevel
    settings.maxWorkers := options.workers.getD manager.settings.maxWorkers
    settings.executor := options.executor.getD manager.settings.executor }

theorem asked_some (world : World) (manager : Manager) : asked world (some manager) = .ok manager :=
  rfl

theorem asked_none (world : World) :
    asked world none = (ofEnvironment world.environment).map fun settings => { settings } := by
  simp only [asked, Option.elim, Manager.new]
  cases ofEnvironment world.environment <;> rfl

/-- The words of a command line are never refused as settings: the check comes later. -/
theorem update_overrides (options : Options) (manager : Manager) :
    manager.settings.update (overrides options) = .ok (commanded options manager).settings := by
  unfold overrides commanded
  cases options.logLevel <;> cases options.workers <;> cases options.executor <;> rfl

section

variable {world : World} {options : Options} {manager : Manager} {shared left : Option Manager}
  {fault : Settings.Fault}

/-- Behind the settings file: the words of the command line, and then the check. -/
theorem on_command_check (options : Options) (laid : Manager) :
    (do
      Operation.update (overrides options)
      MonadExcept.ofExcept (← get).settings.check : Operation Unit).on laid =
      ((commanded options laid).settings.check, commanded options laid) := by
  simp only [Operation.on_bind, Operation.on_update, update_overrides, Operation.on_get,
    Operation.on_ofExcept]
  rfl

theorem on_settle (world : World) (options : Options) (manager : Manager) :
    (settle world options).on manager =
      match laidOver world options manager with
      | .error fault => (.error fault, manager)
      | .ok laid => ((commanded options laid).settings.check, commanded options laid) := by
  unfold settle laidOver
  by_cases hEmpty : (options.settings.getD "").isEmpty
  · simp only [hEmpty, if_true]
    exact on_command_check options manager
  · simp only [if_neg hEmpty]
    rw [Operation.on_bind, Operation.on_load, Manager.load_eq]
    cases (Settings.fileEntries world.snapshot _).bind manager.settings.update with
    | error fault => rfl
    | ok settings => exact on_command_check options _

theorem configureShared_eq (world : World) (options : Options) (shared : Option Manager) :
    configureShared world options shared =
      match asked world shared with
      | .error fault => (.error fault, shared)
      | .ok manager =>
        match laidOver world options manager with
        | .error fault => (.error fault, some manager)
        | .ok laid =>
          ((commanded options laid).settings.check.map fun _ => commanded options laid,
            some (commanded options laid)) := by
  unfold configureShared
  cases hAsked : asked world shared with
  | error fault =>
    simp only [show shared.elim _ _ = Except.error fault from hAsked]
  | ok manager =>
    simp only [show shared.elim _ _ = Except.ok manager from hAsked, on_settle]
    cases laidOver world options manager <;> rfl

/-- The settings of a command are refused at the environment, at the settings file or at the final
check, and the manager is then the one from before, the one from before or the refused one. -/
theorem configureShared_eq_error_iff :
    configureShared world options shared = (.error fault, left) ↔
      asked world shared = .error fault ∧ left = shared ∨
        ∃ manager, asked world shared = .ok manager ∧
          (laidOver world options manager = .error fault ∧ left = some manager ∨
            ∃ laid, laidOver world options manager = .ok laid ∧
              (commanded options laid).settings.check = .error fault ∧
              left = some (commanded options laid)) := by
  rw [configureShared_eq]
  cases asked world shared with
  | error other => simp [eq_comm]
  | ok manager =>
    cases hLaid : laidOver world options manager with
    | error other => simp [hLaid, eq_comm]
    | ok laid =>
      cases hCheck : (commanded options laid).settings.check with
      | error other => simp [hLaid, hCheck, Except.map, eq_comm]
      | ok _ => simp [hLaid, hCheck, Except.map]

theorem runShared_of_refused {measured : Run.Monitor.Measure → String} {words : List String}
    (hWords : Options.ofWords words = .ok options)
    (hRefused : configureShared world options shared = (.error fault, left)) :
    runShared world measured words shared = (refuseSettings fault, left) := by
  simp [runShared, planShared, hWords, hRefused, Except.bind]

end

end DtdConformance.Cli
