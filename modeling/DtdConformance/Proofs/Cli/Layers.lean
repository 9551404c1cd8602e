import DtdConformance.Proofs.Cli.Outcome
import DtdConformance.Proofs.Settings.Origin

/-! # Which settings a command uses

Four layers give the fields of the settings their values: the words of the command line prevail over
its settings file, the file over the environment, and the environment over the defaults. A command
has settings unless a layer is refused, or what the layers make together.
-/
namespace DtdConformance.Cli
set_option autoImplicit false

open Data (Value)
open Settings (Field Environment Manager Overrides Provides Reads Denotes Fits Acceptable
  ofEnvironment)
open Settings.Overrides (asRead)

/-! ## The layers -/

/-- What the words of a command line say of a field. -/
def Options.value? (options : Options) : Field → Option Value
  | .logLevel => options.logLevel.map .text
  | .maxWorkers => options.workers.map .int
  | .executor => options.executor.map .text
  | .useParserLines | .textPreviewLength | .hugeTree => none

/-- The entries of the settings file that a command line names, and none if it names no file. -/
def filed (world : World) (options : Options) :
    Except Settings.Fault (List (Value × Value)) :=
  let path := options.settings.getD ""
  if path.isEmpty then .ok [] else Settings.fileEntries world.snapshot (.ofText path)

/-- The value that a field has from the first layer that says something of it. -/
inductive Prevails (environment : Environment) (options : Options) (overrides : Overrides)
    (field : Field) : Value → Prop
  | commanded {value : Value} (hAsked : options.value? field = some value) :
      Prevails environment options overrides field value
  | filed {value denoted : Value} (hNone : options.value? field = none)
      (hEntry : (field.name, value) ∈ overrides.entries)
      (hDenotes : Denotes field.kind value denoted) :
      Prevails environment options overrides field denoted
  | surrounding {value : Value} (hNone : options.value? field = none)
      (hAbsent : field.name ∉ overrides.names) (hProvides : Provides environment field value) :
      Prevails environment options overrides field value

/-- Each field has the value that prevails. -/
def Effective (world : World) (options : Options) (settings : Settings) : Prop :=
  ∃ overrides, filed world options = .ok (asRead overrides.entries) ∧
    ∀ field, Prevails world.environment options overrides field (settings.valueOf field)

/-- Why a command has no settings. -/
inductive Misconfigured (world : World) (options : Options) : Prop
  | environment {field : Field} {text : String}
      (hText : world.environment.text? field = some text)
      (hUnread : ∀ value, ¬ Reads field text value)
  | file {fault : Settings.Fault} (hFile : filed world options = .error fault)
  | entry {overrides : Overrides} {entry : String × Value}
      (hFile : filed world options = .ok (asRead overrides.entries))
      (hEntry : entry ∈ overrides.entries) (hUnfit : ¬ Fits entry)
  | effective {settings : Settings} (hEffective : Effective world options settings)
      (hRefused : ¬ Acceptable settings)

theorem asRead_injective : Function.Injective asRead := by
  refine List.map_injective_iff.mpr fun entry other hSame => ?_
  obtain ⟨hName, hValue⟩ := Prod.mk.inj hSame
  exact Prod.ext (Value.text.inj hName) hValue

theorem Prevails.unique {environment : Environment} {options : Options}
    {overrides same : Overrides} {field : Field} {value other : Value}
    (hSame : same.entries = overrides.entries)
    (h : Prevails environment options overrides field value)
    (hOther : Prevails environment options same field other) : other = value := by
  have hNames : same.names = overrides.names := congrArg (List.map Prod.fst) hSame
  cases h with
  | commanded hAsked =>
    cases hOther with
    | commanded hAskedOther => exact Option.some.inj (hAskedOther.symm.trans hAsked)
    | filed hNone | surrounding hNone => cases hNone.symm.trans hAsked
  | filed hNone hEntry hDenotes =>
    cases hOther with
    | commanded hAsked => cases hNone.symm.trans hAsked
    | filed _ hEntryOther hDenotesOther =>
      -- a name stands before one value only
      rw [hSame] at hEntryOther
      have hEntries := List.inj_on_of_nodup_map overrides.distinct hEntry hEntryOther rfl
      rw [← (Prod.mk.inj hEntries).2] at hDenotesOther
      exact hDenotes.unique hDenotesOther
    | surrounding _ hAbsent =>
      rw [hNames] at hAbsent
      exact absurd (Overrides.mem_names_of_mem hEntry) hAbsent
  | surrounding hNone hAbsent hProvides =>
    cases hOther with
    | commanded hAsked => cases hNone.symm.trans hAsked
    | filed _ hEntry =>
      rw [hSame] at hEntry
      exact absurd (Overrides.mem_names_of_mem hEntry) hAbsent
    | surrounding _ _ hProvidesOther => exact hProvides.unique hProvidesOther

section

variable {world : World} {options : Options}

theorem Effective.unique {settings other : Settings} (h : Effective world options settings)
    (hOther : Effective world options other) : other = settings := by
  obtain ⟨overrides, hFile, hPrevails⟩ := h
  obtain ⟨same, hSame, hPrevailsOther⟩ := hOther
  have hEntries := asRead_injective (Except.ok.inj (hSame.symm.trans hFile))
  exact Settings.ext_valueOf fun field => (hPrevails field).unique hEntries (hPrevailsOther field)

/-! ## Laying one layer over another -/

theorem valueOf_commanded (options : Options) (manager : Manager) (field : Field) :
    (commanded options manager).settings.valueOf field =
      (options.value? field).getD (manager.settings.valueOf field) := by
  cases field with
  | logLevel => cases hAsked : options.logLevel <;>
      simp [commanded, Options.value?, Settings.valueOf, hAsked]
  | maxWorkers => cases hAsked : options.workers <;>
      simp [commanded, Options.value?, Settings.valueOf, hAsked]
  | executor => cases hAsked : options.executor <;>
      simp [commanded, Options.value?, Settings.valueOf, hAsked]
  | useParserLines | textPreviewLength | hugeTree => rfl

theorem map_settings_laidOver (world : World) (options : Options) (manager : Manager) :
    (laidOver world options manager).map Manager.settings =
      (filed world options).bind manager.settings.update := by
  unfold laidOver filed
  dsimp only
  split
  · rfl
  · rw [Manager.load_eq]
    cases (Settings.fileEntries world.snapshot _).bind manager.settings.update <;> rfl

theorem exists_overrides_of_filed {entries : List (Value × Value)}
    (h : filed world options = .ok entries) (hTexts : ¬ NamesForeignKey world options) :
    ∃ overrides : Overrides, entries = asRead overrides.entries := by
  unfold filed at h
  dsimp only at h
  split at h
  · cases h
    exact ⟨⟨[], List.nodup_nil⟩, rfl⟩
  · next hSome =>
    cases hPath : options.settings with
    | none => simp [hPath] at hSome
    | some path =>
      rw [hPath, Option.getD_some] at h hSome
      refine Settings.exists_overrides_of_fileEntries h fun hForeign => ?_
      exact hTexts ⟨path, hPath, by simpa using hSome, hForeign⟩

/-- What has been laid over the environment, when nothing has been refused. -/
theorem prevails_of_laidOver {start : Settings} {laid : Manager}
    (hStart : ofEnvironment world.environment = .ok start)
    (hLaid : laidOver world options ⟨start, none⟩ = .ok laid)
    (hTexts : ¬ NamesForeignKey world options) :
    ∃ overrides, filed world options = .ok (asRead overrides.entries) ∧
      (∀ entry ∈ overrides.entries, Fits entry) ∧
      ∀ field, Prevails world.environment options overrides field
        ((commanded options laid).settings.valueOf field) := by
  have hSettings := map_settings_laidOver world options ⟨start, none⟩
  rw [hLaid] at hSettings
  cases hFile : filed world options with
  | error fault =>
    rw [hFile] at hSettings
    cases hSettings
  | ok entries =>
    obtain ⟨overrides, rfl⟩ := exists_overrides_of_filed hFile hTexts
    rw [hFile] at hSettings
    obtain ⟨hFits, hLays⟩ := (Settings.update_eq_ok_iff overrides).mp hSettings.symm
    refine ⟨overrides, rfl, hFits, fun field => ?_⟩
    rw [valueOf_commanded]
    cases hAsked : options.value? field with
    | some value => exact .commanded hAsked
    | none =>
      rw [Option.getD_none]
      by_cases hNamed : field.name ∈ overrides.names
      · obtain ⟨⟨name, value⟩, hEntry, rfl⟩ := List.mem_map.mp hNamed
        exact .filed hAsked hEntry (hLays.given hEntry)
      · rw [hLays.kept hNamed]
        exact .surrounding hAsked hNamed (Settings.provides_of_ofEnvironment hStart field)

/-! ## Settings in force -/

theorem exists_ofEnvironment_of_not_misconfigured (h : ¬ Misconfigured world options) :
    ∃ start, ofEnvironment world.environment = .ok start := by
  rw [Settings.exists_ofEnvironment_eq_ok_iff]
  intro field text hText
  refine Classical.byContradiction fun hNone => h (.environment hText fun value hReads => ?_)
  exact hNone ⟨value, hReads⟩

theorem exists_laidOver_of_not_misconfigured (h : ¬ Misconfigured world options)
    (hTexts : ¬ NamesForeignKey world options) (manager : Manager) :
    ∃ laid, laidOver world options manager = .ok laid := by
  have hSettings := map_settings_laidOver world options manager
  cases hFile : filed world options with
  | error fault => exact absurd (.file hFile) h
  | ok entries =>
    obtain ⟨overrides, rfl⟩ := exists_overrides_of_filed hFile hTexts
    have hFits : ∀ entry ∈ overrides.entries, Fits entry := fun entry hEntry =>
      Classical.byContradiction fun hUnfit => h (.entry hFile hEntry hUnfit)
    obtain ⟨result, hResult⟩ :=
      (Settings.exists_update_eq_ok_iff manager.settings overrides).mpr hFits
    rw [hFile, Except.bind, hResult] at hSettings
    cases hLaid : laidOver world options manager with
    | error fault =>
      rw [hLaid] at hSettings
      cases hSettings
    | ok laid => exact ⟨laid, rfl⟩

/-- A command whose settings are not refused has the settings that prevail. -/
theorem effective_of_configured {manager : Manager} {left : Option Manager}
    (hTexts : ¬ NamesForeignKey world options)
    (h : configureShared world options none = (.ok manager, left)) :
    Effective world options manager.settings ∧ ¬ Misconfigured world options := by
  have hCheck := check_of_configured h
  rw [configureShared_eq, asked_none] at h
  cases hStart : ofEnvironment world.environment with
  | error fault => simp [hStart, Except.map] at h
  | ok start =>
    cases hLaid : laidOver world options ⟨start, none⟩ with
    | error fault => simp [hStart, hLaid, Except.map] at h
    | ok laid =>
      have hManager : commanded options laid = manager := by
        cases hPassed : (commanded options laid).settings.check with
        | error fault => simp [hStart, hLaid, hPassed, Except.map] at h
        | ok passed =>
          simp only [hStart, hLaid, hPassed, Except.map, Prod.mk.injEq, Except.ok.injEq] at h
          exact h.1
      obtain ⟨overrides, hFile, hFits, hPrevails⟩ := prevails_of_laidOver hStart hLaid hTexts
      rw [hManager] at hPrevails
      have hEffective : Effective world options manager.settings := ⟨overrides, hFile, hPrevails⟩
      refine ⟨hEffective, fun hMisconfigured => ?_⟩
      cases hMisconfigured with
      | environment hText hUnread =>
        obtain ⟨value, hReads⟩ :=
          (Settings.exists_ofEnvironment_eq_ok_iff _).mp ⟨start, hStart⟩ _ _ hText
        exact hUnread value hReads
      | file hError => cases hFile.symm.trans hError
      | entry hSame hEntry hUnfit =>
        have hEntries := asRead_injective (Except.ok.inj (hSame.symm.trans hFile))
        exact hUnfit (hFits _ (hEntries ▸ hEntry))
      | effective hOther hRefused =>
        rw [hEffective.unique hOther] at hRefused
        exact hRefused ((Settings.check_eq_ok_iff _).mp hCheck)

theorem exists_configured_of_not_misconfigured (hTexts : ¬ NamesForeignKey world options)
    (h : ¬ Misconfigured world options) :
    ∃ manager left, configureShared world options none = (.ok manager, left) := by
  obtain ⟨start, hStart⟩ := exists_ofEnvironment_of_not_misconfigured h
  obtain ⟨laid, hLaid⟩ := exists_laidOver_of_not_misconfigured h hTexts ⟨start, none⟩
  obtain ⟨overrides, hFile, -, hPrevails⟩ := prevails_of_laidOver hStart hLaid hTexts
  have hAcceptable : Acceptable (commanded options laid).settings :=
    Classical.byContradiction fun hRefused =>
      h (.effective ⟨overrides, hFile, hPrevails⟩ hRefused)
  have hCheck := (Settings.check_eq_ok_iff _).mpr hAcceptable
  refine ⟨commanded options laid, some (commanded options laid), ?_⟩
  rw [configureShared_eq, asked_none, hStart]
  simp only [Except.map, hLaid, hCheck]

end

end DtdConformance.Cli
