import DtdConformance.Proofs.Settings.Operation

/-! # What settings are refused for

Every fault has a message except that of a key that is no text. It is found exactly when a mapping
holds such a key, whatever else is wrong with the mapping, and nowhere else: neither the environment
nor a file that cannot be read has it.
-/
namespace DtdConformance.Settings
set_option autoImplicit false

open Data (Value)
open Files

theorem Fault.message?_eq_none_iff (fault : Fault) : fault.message? = none ↔ fault = .foreignKey := by
  cases fault <;> simp [message?]

/-! ## New values -/

/-- A key of a mapping that is no text. -/
def HoldsForeignKey (entries : List (Value × Value)) : Prop :=
  ∃ entry ∈ entries, ∀ name, entry.1 ≠ .text name

theorem toText?_eq_none_iff (value : Value) : toText? value = none ↔ ∀ s, value ≠ .text s := by
  cases value <;> simp [toText?]

theorem fieldOf?_eq_none_of_toText? {key : Value} (h : toText? key = none) : fieldOf? key = none := by
  cases key with
  | text s => cases h
  | _ => rfl

theorem mapM_toText?_eq_none_iff (keys : List Value) :
    keys.mapM toText? = none ↔ ∃ key ∈ keys, toText? key = none := by
  induction keys with
  | nil => simp
  | cons key keys ih =>
    rw [List.mapM_cons]
    cases hKey : toText? key with
    | none => simp [hKey]
    | some name =>
      cases hKeys : keys.mapM toText? with
      | none => simpa [hKey, hKeys] using ih.mp hKeys
      | some names =>
        have hAll : ∀ key ∈ keys, toText? key ≠ none := fun key hMem hNone =>
          Option.some_ne_none names (hKeys.symm.trans (ih.mpr ⟨key, hMem, hNone⟩))
        simpa [hKey, hKeys] using hAll

section

variable {settings : Settings} {entries : List (Value × Value)} {fault : Fault}

theorem exists_wrongKind_of_assignAll (h : settings.assignAll entries = .error fault) :
    ∃ field value, fault = .wrongKind field value := by
  induction entries generalizing settings with
  | nil => cases h
  | cons entry entries ih =>
    obtain ⟨key, value⟩ := entry
    rw [assignAll] at h
    cases hField : fieldOf? key with
    | none =>
      rw [hField] at h
      exact ih h
    | some field =>
      rw [hField] at h
      cases hAssign : settings.assign? field value with
      | none =>
        simp only [assign, hAssign] at h
        cases h
        exact ⟨field, value, rfl⟩
      | some assigned =>
        simp only [assign, hAssign] at h
        exact ih h

theorem unknownKeys_eq_nil_iff :
    unknownKeys entries = [] ↔ ∀ entry ∈ entries, fieldOf? entry.1 ≠ none := by
  simp [unknownKeys, List.filter_eq_nil_iff]

theorem mapM_unknownKeys_eq_none_iff :
    (unknownKeys entries).mapM toText? = none ↔ HoldsForeignKey entries := by
  rw [mapM_toText?_eq_none_iff]
  constructor
  · rintro ⟨key, hKey, hNone⟩
    obtain ⟨entry, hEntry, rfl⟩ := List.mem_map.mp (List.mem_filter.mp hKey).1
    exact ⟨entry, hEntry, (toText?_eq_none_iff _).mp hNone⟩
  · rintro ⟨entry, hEntry, hForeign⟩
    have hNone := (toText?_eq_none_iff _).mpr hForeign
    refine ⟨entry.1, List.mem_filter.mpr ⟨List.mem_map_of_mem hEntry, ?_⟩, hNone⟩
    rw [fieldOf?_eq_none_of_toText? hNone]
    rfl

theorem update_of_known (settings : Settings) (h : ∀ entry ∈ entries, fieldOf? entry.1 ≠ none) :
    settings.update entries = settings.assignAll entries := by
  simp [update, unknownKeys_eq_nil_iff.mpr h]

theorem update_of_unknown (settings : Settings) (h : ∃ entry ∈ entries, fieldOf? entry.1 = none)
    (hTexts : ¬ HoldsForeignKey entries) :
    ∃ names, settings.update entries = .error (.unknownKeys names) := by
  have hSome : unknownKeys entries ≠ [] := by simpa [unknownKeys_eq_nil_iff] using h
  obtain ⟨names, hNames⟩ :=
    Option.ne_none_iff_exists'.mp (mt mapM_unknownKeys_eq_none_iff.mp hTexts)
  exact ⟨_, by simp [update, hSome, hNames]; rfl⟩

theorem update_of_foreign (settings : Settings) (h : HoldsForeignKey entries) :
    settings.update entries = .error .foreignKey := by
  have hNone := mapM_unknownKeys_eq_none_iff.mpr h
  have hSome : unknownKeys entries ≠ [] := by
    intro hNil
    rw [hNil] at hNone
    cases hNone
  simp [update, hSome, hNone]

/-- A key that is no text comes before all else that new values are refused for. -/
theorem update_eq_foreignKey_iff (settings : Settings) :
    settings.update entries = .error .foreignKey ↔ HoldsForeignKey entries := by
  refine ⟨fun h => Classical.byContradiction fun hTexts => ?_, update_of_foreign settings⟩
  by_cases hKnown : ∀ entry ∈ entries, fieldOf? entry.1 ≠ none
  · rw [update_of_known settings hKnown] at h
    obtain ⟨field, value, hFault⟩ := exists_wrongKind_of_assignAll h
    cases hFault
  · obtain ⟨names, hNames⟩ := update_of_unknown settings (by simpa using hKnown) hTexts
    cases h.symm.trans hNames

end

/-! ## Files -/

section

variable {snapshot : Snapshot} {path : Path} {fault : Fault}

theorem readFile_ne_foreignKey : readFile snapshot path ≠ .error .foreignKey := by
  simp only [readFile, bind, Except.bind, throw, throwThe, MonadExceptOf.throw, pure, Except.pure]
  intro h
  grind

theorem fileEntries_ne_foreignKey : fileEntries snapshot path ≠ .error .foreignKey := by
  have hRead := @readFile_ne_foreignKey snapshot path
  unfold fileEntries
  cases hFile : readFile snapshot path with
  | error fault =>
    rw [hFile] at hRead
    simpa [bind, Except.bind] using hRead
  | ok value =>
    cases value <;> simp [bind, Except.bind, pure, Except.pure, throw, throwThe, MonadExceptOf.throw]

theorem fileEntries_eq_ok_iff {entries : List (Value × Value)} :
    fileEntries snapshot path = .ok entries ↔
      readFile snapshot path = .ok (.mapping entries) ∨
        readFile snapshot path = .ok .null ∧ entries = [] := by
  unfold fileEntries
  cases readFile snapshot path with
  | error fault => simp [bind, Except.bind]
  | ok value =>
    cases value <;>
      simp [bind, Except.bind, pure, Except.pure, throw, throwThe, MonadExceptOf.throw, eq_comm]

/-- The file that is read holds a mapping with a key that is no text. -/
def FileHoldsForeignKey (snapshot : Snapshot) (path : Path) : Prop :=
  ∃ entries, readFile snapshot path = .ok (.mapping entries) ∧ HoldsForeignKey entries

theorem bind_update_eq_foreignKey_iff (settings : Settings) :
    (fileEntries snapshot path).bind settings.update = .error .foreignKey ↔
      FileHoldsForeignKey snapshot path := by
  cases hEntries : fileEntries snapshot path with
  | error fault =>
    constructor
    · intro h
      exact absurd (hEntries.trans (congrArg Except.error (Except.error.inj h)))
        fileEntries_ne_foreignKey
    · rintro ⟨entries, hFile, -⟩
      rw [fileEntries_eq_ok_iff.mpr (.inl hFile)] at hEntries
      cases hEntries
  | ok entries =>
    simp only [Except.bind, update_eq_foreignKey_iff]
    obtain hFile | ⟨hFile, rfl⟩ := fileEntries_eq_ok_iff.mp hEntries
    · simp [FileHoldsForeignKey, hFile]
    · simp [FileHoldsForeignKey, HoldsForeignKey, hFile]

theorem Manager.load_eq_foreignKey_iff (manager : Manager) :
    manager.load snapshot path = .error .foreignKey ↔ FileHoldsForeignKey snapshot path := by
  rw [load_eq, ← bind_update_eq_foreignKey_iff manager.settings]
  cases (fileEntries snapshot path).bind manager.settings.update <;> simp [Except.map]

end

/-! ## The environment -/

theorem Environment.integer_ne_foreignKey (environment : Environment) (field : Field)
    (default : Int) : environment.integer field default ≠ .error .foreignKey := by
  unfold integer
  cases environment.text? field with
  | none => simp
  | some text => cases hNumber : Text.integer? text.toList <;> simp [hNumber]

theorem ofEnvironment_ne_foreignKey (environment : Environment) :
    ofEnvironment environment ≠ .error .foreignKey := by
  simp only [ofEnvironment, bind, Except.bind, pure, Except.pure]
  cases hWorkers : environment.integer .maxWorkers ({} : Settings).maxWorkers with
  | error fault =>
    have hNe := hWorkers ▸ environment.integer_ne_foreignKey .maxWorkers _
    simpa using hNe
  | ok maxWorkers =>
    cases hLength : environment.integer .textPreviewLength ({} : Settings).textPreviewLength with
    | error fault =>
      have hNe := hLength ▸ environment.integer_ne_foreignKey .textPreviewLength _
      simpa using hNe
    | ok textPreviewLength => simp

/-! ## The final check -/

theorem check_ne_foreignKey (settings : Settings) : settings.check ≠ .error .foreignKey := by
  unfold check
  split <;> simp

theorem keeps_of_check {settings : Settings} (h : settings.check = .ok ()) (rule : Rule) :
    settings.keeps rule = true := by
  have hNone : settings.brokenRules = [] := by
    unfold check at h
    split at h
    · exact List.isEmpty_iff.mp ‹_›
    · cases h
  have hRule : rule ∈ Rule.all := by cases rule <;> decide
  simpa using List.filter_eq_nil_iff.mp hNone rule hRule

end DtdConformance.Settings
