import DtdConformance.Proofs.Cli.Configuration
import DtdConformance.Proofs.Run.Batch
import DtdConformance.Proofs.Settings.Refusal

/-! # What ends a command

Once the settings of a command have passed the final check nothing ends it without an exit code: the
pool knows its kind and has workers. Before that, only a settings file with a key that is no text
does so, and whatever else is refused is reported.
-/
namespace DtdConformance.Cli
set_option autoImplicit false

open Run (Pool Monitor)
open Settings (Manager FileHoldsForeignKey)

/-! ## The pool of checked settings -/

theorem lower_name (executor : Executor) : Text.lower executor.name = executor.name := by
  cases executor <;> decide +kernel

theorem exists_pool_eq_ok {settings : Settings} (h : settings.check = .ok ()) (isMonitored : Bool) :
    ∃ pool log, Pool.new settings none none isMonitored = .ok (pool, log) ∧ 0 < pool.workers ∧
      pool.settings = settings := by
  have hWorkers : 0 < settings.maxWorkers :=
    of_decide_eq_true (Settings.keeps_of_check h .positiveWorkers)
  obtain ⟨executor, hExecutor⟩ :=
    Option.isSome_iff_exists.mp (Settings.keeps_of_check h .knownExecutor)
  have hName : executor.name = settings.executor := by simpa using List.find?_some hExecutor
  -- the pool looks its kind up in small letters, the check as it is written
  have hLower : Executor.ofName? (Text.lower settings.executor) = some executor := by
    rw [← hName, lower_name, hName, hExecutor]
  cases executor <;> simp [Pool.new, hLower, hWorkers]

section

variable {world : World} {options : Options} {words : List String} {shared : Option Manager}

theorem exit_conclude_ne_crash (plan : Plan) (log : List Log.Entry) (results : List Run.Result)
    (report : Option String) (crash : Crash) :
    (plan.conclude world log results report).exit ≠ .crash crash := by
  simp only [Plan.conclude, Exit.valid, Exit.invalid]
  split <;> simp

/-- With checked settings every request of a plan has the result of checking it alone. -/
theorem exists_outcome_eq_conclude (plan : Plan) (h : plan.settings.check = .ok ())
    (world : World) (measured : Monitor.Measure → String) :
    ∃ log report, plan.outcome world measured =
      .ok (plan.conclude world log (plan.requests.map fun request =>
        Run.check plan.settings world.resultTime request.declarations request.document) report) := by
  obtain ⟨pool, making, hPool, hWorkers, hSettings⟩ := exists_pool_eq_ok h plan.withStats
  obtain ⟨batch, hBatch, hResults⟩ :=
    Pool.exists_batch_eq_ok hWorkers world.resultTime plan.requests
  rw [hSettings] at hResults
  simp only [Plan.outcome, Plan.pool, hPool, Plan.batch, hBatch, Except.mapError, bind, Except.bind,
    pure, Except.pure, hResults]
  exact ⟨_, _, rfl⟩

/-- Settings are in force only when they have passed the check. -/
theorem check_of_configured {manager : Manager} {left : Option Manager}
    (h : configureShared world options shared = (.ok manager, left)) :
    manager.settings.check = .ok () := by
  rw [configureShared_eq] at h
  cases hAsked : asked world shared with
  | error fault => simp [hAsked] at h
  | ok before =>
    cases hLaid : laidOver world options before with
    | error fault => simp [hAsked, hLaid] at h
    | ok laid =>
      cases hCheck : (commanded options laid).settings.check with
      | error fault => simp [hAsked, hLaid, hCheck, Except.map] at h
      | ok passed =>
        simp only [hAsked, hLaid, hCheck, Except.map, Prod.mk.injEq, Except.ok.injEq] at h
        rw [← h.1, hCheck]

/-- With settings in force a command ends with an exit code, whatever its files hold. -/
theorem exit_of_configured {manager : Manager} {left : Option Manager}
    (measured : Monitor.Measure → String) (crash : Crash)
    (hWords : Options.ofWords words = .ok options)
    (hConfigured : configureShared world options shared = (.ok manager, left)) :
    (runShared world measured words shared).1.exit ≠ .crash crash := by
  simp only [runShared, planShared, hWords, hConfigured, planWith]
  cases readTexts world options with
  | error message => simp [Except.bind, Exit.unusable]
  | ok texts =>
    obtain ⟨declarations, documents⟩ := texts
    obtain ⟨log, report, hOutcome⟩ := exists_outcome_eq_conclude
      ⟨manager.settings, options.documents,
        documents.map fun document => ⟨declarations, document⟩, options.json, options.stats,
        opening manager⟩ (check_of_configured hConfigured) world measured
    simp only [Except.bind, hOutcome]
    exact exit_conclude_ne_crash _ log _ report crash

/-! ## Keys that are no texts -/

/-- The settings file of a command line holds a key that is no text. -/
def NamesForeignKey (world : World) (options : Options) : Prop :=
  ∃ path, options.settings = some path ∧ path ≠ "" ∧
    FileHoldsForeignKey world.snapshot (.ofText path)

theorem laidOver_eq_foreignKey_iff (manager : Manager) :
    laidOver world options manager = .error .foreignKey ↔ NamesForeignKey world options := by
  unfold laidOver NamesForeignKey
  cases options.settings with
  | none => simp
  | some path =>
    by_cases hEmpty : path = ""
    · simp [hEmpty]
    · simp [hEmpty, Manager.load_eq_foreignKey_iff]

theorem asked_ne_foreignKey : asked world shared ≠ .error .foreignKey := by
  cases shared with
  | some manager => simp [asked_some]
  | none =>
    have hEnvironment := Settings.ofEnvironment_ne_foreignKey world.environment
    rw [asked_none]
    cases hSettings : Settings.ofEnvironment world.environment with
    | error fault => simpa [hSettings, Except.map] using hEnvironment
    | ok settings => simp [Except.map]

theorem configureShared_eq_foreignKey_iff :
    (∃ left, configureShared world options shared = (.error .foreignKey, left)) ↔
      (∃ manager, asked world shared = .ok manager) ∧ NamesForeignKey world options := by
  constructor
  · rintro ⟨left, h⟩
    obtain ⟨hAsked, -⟩ | ⟨manager, hAsked, hRefused⟩ := configureShared_eq_error_iff.mp h
    · exact absurd hAsked asked_ne_foreignKey
    · obtain ⟨hLaid, -⟩ | ⟨laid, -, hCheck, -⟩ := hRefused
      · exact ⟨⟨manager, hAsked⟩, (laidOver_eq_foreignKey_iff manager).mp hLaid⟩
      · exact absurd hCheck (Settings.check_ne_foreignKey _)
  · rintro ⟨⟨manager, hAsked⟩, hForeign⟩
    have hLaid := (laidOver_eq_foreignKey_iff manager).mpr hForeign
    exact ⟨_, configureShared_eq_error_iff.mpr (.inr ⟨manager, hAsked, .inl ⟨hLaid, rfl⟩⟩)⟩

theorem refuseSettings_of_message {fault : Settings.Fault} {message : String}
    (h : fault.message? = some message) :
    refuseSettings fault = ⟨.code 2, "", "Configuration error: " ++ message ++ "
"⟩ := by
  simp only [refuseSettings, h]
  rfl

theorem exit_refuseSettings_eq_crash_iff {fault : Settings.Fault} {crash : Crash} :
    (refuseSettings fault).exit = .crash crash ↔
      crash = .settings .foreignKey ∧ fault = .foreignKey := by
  cases hMessage : fault.message? with
  | none =>
    obtain rfl := (Settings.Fault.message?_eq_none_iff fault).mp hMessage
    simp [refuseSettings, hMessage, eq_comm]
  | some message =>
    have hOther : fault ≠ .foreignKey :=
      mt (Settings.Fault.message?_eq_none_iff fault).mpr (by simp [hMessage])
    simp [refuseSettings_of_message hMessage, hOther]

/-- A command ends without an exit code only at a settings file with a key that is no text. -/
theorem exit_eq_crash_iff {measured : Monitor.Measure → String} {crash : Crash}
    (hWords : Options.ofWords words = .ok options) :
    (runShared world measured words shared).1.exit = .crash crash ↔
      crash = .settings .foreignKey ∧ (∃ manager, asked world shared = .ok manager) ∧
        NamesForeignKey world options := by
  rw [← configureShared_eq_foreignKey_iff]
  cases hConfigured : configureShared world options shared with
  | mk configured left =>
    cases configured with
    | error fault =>
      rw [runShared_of_refused hWords hConfigured, exit_refuseSettings_eq_crash_iff]
      simp
    | ok manager =>
      have hExit := exit_of_configured measured crash hWords hConfigured
      simp [hExit]

end

/-- Every file is a settings file of one line, whose key is a number. -/
def numbered : Settings.Snapshot := fun _ => .file "1: x".toUTF8.toList

theorem load_numbered (manager : Manager) :
    manager.load numbered (.ofText "s.yaml") = .error .foreignKey := by
  have hLoad : (match Settings.readFile numbered (.ofText "s.yaml") with
      | .ok (.mapping entries) => entries.any fun entry => (Settings.toText? entry.1).isNone
      | _ => false) = true := by
    decide +kernel
  rw [Manager.load_eq_foreignKey_iff]
  split at hLoad
  · rename_i entries hEntries
    obtain ⟨entry, hEntry, hNone⟩ := List.any_eq_true.mp hLoad
    exact ⟨entries, hEntries, entry, hEntry,
      (Settings.toText?_eq_none_iff _).mp (Option.isNone_iff_eq_none.mp hNone)⟩
  · cases hLoad

end DtdConformance.Cli
