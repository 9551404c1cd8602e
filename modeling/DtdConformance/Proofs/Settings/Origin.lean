import DtdConformance.Proofs.Data.Mapping
import DtdConformance.Proofs.Settings.Override

/-! # Where settings come from

The environment gives every field a value, or is refused for a number that cannot be read. A settings
file gives values under names, at most one a name, since a mapping binds each key once. What passes
the final check can be put to use.
-/
namespace DtdConformance.Settings
set_option autoImplicit false

open Data (Value)
open Files

/-! ## The environment -/

/-- What the text of a variable says of its field. Words may be written in any letter case, and all
but one of them deny a truth value. -/
inductive Reads : Field → String → Value → Prop
  | logLevel (text : String) : Reads .logLevel text (.text (Text.upper text))
  | executor (text : String) : Reads .executor text (.text (Text.lower text))
  | number {field : Field} {text : String} {n : Int} (hKind : field.kind = .integer)
      (hNumeral : Text.integer? text.toList = some n) : Reads field text (.int n)
  | truth {field : Field} (hKind : field.kind = .truth) (text : String) :
      Reads field text (.bool (decide (Text.lower text = "true")))

theorem Reads.unique {field : Field} {text : String} {value other : Value}
    (h : Reads field text value) (hOther : Reads field text other) : other = value := by
  cases h with
  | number hKind hNumeral =>
    cases hOther with
    | number _ hSame => rw [Option.some.inj (hSame.symm.trans hNumeral)]
    | truth hTruth => cases hKind.symm.trans hTruth
    | _ => cases hKind
  | truth hKind =>
    cases hOther with
    | truth => rfl
    | number hNumber => cases hKind.symm.trans hNumber
    | _ => cases hKind
  | _ =>
    cases hOther with
    | number hKind | truth hKind => cases hKind
    | _ => rfl

/-- The value that a field has in an environment: what its variable says if that is set, and the
default if not. -/
inductive Provides (environment : Environment) (field : Field) : Value → Prop
  | given {text : String} {value : Value} (hText : environment.text? field = some text)
      (hReads : Reads field text value) : Provides environment field value
  | absent {value : Value} (hNone : environment.text? field = none)
      (hDefault : value = ({} : Settings).valueOf field) : Provides environment field value

theorem Provides.unique {environment : Environment} {field : Field} {value other : Value}
    (h : Provides environment field value) (hOther : Provides environment field other) :
    other = value := by
  cases h with
  | given hText hReads =>
    cases hOther with
    | given hSame hReadsOther =>
      cases hText.symm.trans hSame
      exact hReads.unique hReadsOther
    | absent hNone => cases hText.symm.trans hNone
  | absent hNone hDefault =>
    cases hOther with
    | given hText => cases hText.symm.trans hNone
    | absent _ hSame => rw [hSame, hDefault]

section

variable {environment : Environment} {field : Field}

theorem provides_of_integer {default n : Int} (hKind : field.kind = .integer)
    (hDefault : ({} : Settings).valueOf field = .int default)
    (h : environment.integer field default = .ok n) : Provides environment field (.int n) := by
  unfold Environment.integer at h
  split at h
  · next hNone =>
    cases h
    exact .absent hNone hDefault.symm
  · next text hText =>
    split at h
    · next hNumeral =>
      cases h
      exact .given hText (.number hKind hNumeral)
    · cases h

theorem exists_integer_eq_ok (hKind : field.kind = .integer)
    (h : ∀ text, environment.text? field = some text → ∃ value, Reads field text value)
    (default : Int) :
    ∃ n, environment.integer field default = .ok n := by
  unfold Environment.integer
  split
  · exact ⟨default, rfl⟩
  · next text hText =>
    obtain ⟨value, hReads⟩ := h text hText
    cases hReads with
    | number _ hNumeral => exact ⟨_, by rw [hNumeral]⟩
    | truth hTruth => cases hKind.symm.trans hTruth
    | _ => cases hKind

theorem provides_truth {default : Bool} (hKind : field.kind = .truth)
    (hDefault : ({} : Settings).valueOf field = .bool default) :
    Provides environment field (.bool (environment.truth field default)) := by
  unfold Environment.truth
  split
  · next hNone => exact .absent hNone hDefault.symm
  · next text hText => exact .given hText (.truth hKind text)

/-- A word is taken in one letter case, and its default is written in it. -/
theorem provides_word {adapted : String → String} {default : String}
    (hReads : ∀ text, Reads field text (.text (adapted text)))
    (hDefault : ({} : Settings).valueOf field = .text default)
    (hAdapted : adapted default = default) :
    Provides environment field (.text (adapted ((environment.text? field).getD default))) := by
  cases hText : environment.text? field with
  | some text => exact .given hText (hReads text)
  | none =>
    rw [Option.getD_none, hAdapted]
    exact .absent hText hDefault.symm

end

theorem provides_of_ofEnvironment {environment : Environment} {settings : Settings}
    (h : ofEnvironment environment = .ok settings) (field : Field) :
    Provides environment field (settings.valueOf field) := by
  simp only [ofEnvironment, bind, Except.bind, pure, Except.pure] at h
  split at h
  · cases h
  · next maxWorkers hWorkers =>
    split at h
    · cases h
    · next textPreviewLength hLength =>
      cases h
      cases field with
      | logLevel => exact provides_word .logLevel rfl (by decide +kernel)
      | maxWorkers => exact provides_of_integer rfl rfl hWorkers
      | executor => exact provides_word .executor rfl (by decide +kernel)
      | useParserLines | hugeTree => exact provides_truth rfl rfl
      | textPreviewLength => exact provides_of_integer rfl rfl hLength

/-- The environment is taken exactly when each variable says something of its field. -/
theorem exists_ofEnvironment_eq_ok_iff (environment : Environment) :
    (∃ settings, ofEnvironment environment = .ok settings) ↔
      ∀ field text, environment.text? field = some text → ∃ value, Reads field text value := by
  constructor
  · rintro ⟨settings, h⟩ field text hText
    cases provides_of_ofEnvironment h field with
    | given hSame hReads =>
      cases hText.symm.trans hSame
      exact ⟨_, hReads⟩
    | absent hNone => cases hText.symm.trans hNone
  · intro h
    obtain ⟨maxWorkers, hWorkers⟩ :=
      exists_integer_eq_ok rfl (h .maxWorkers) ({} : Settings).maxWorkers
    obtain ⟨textPreviewLength, hLength⟩ :=
      exists_integer_eq_ok rfl (h .textPreviewLength) ({} : Settings).textPreviewLength
    simp only [ofEnvironment, hWorkers, hLength]
    exact ⟨_, rfl⟩

/-! ## Settings files -/

section

variable {snapshot : Snapshot} {path : Path}

theorem wellKeyed_of_readFile {value : Value} (h : readFile snapshot path = .ok value) :
    value.WellKeyed := by
  simp only [readFile, bind, Except.bind, throw, throwThe, MonadExceptOf.throw, pure,
    Except.pure] at h
  repeat' split at h
  all_goals cases h
  next hValue =>
  obtain ⟨format, -, hRead⟩ := Option.bind_eq_some_iff.mp hValue
  cases format with
  | json => exact Data.Json.wellKeyed_read? hRead
  | yaml => exact Data.Yaml.wellKeyed_read? hRead

open Overrides (asRead)

theorem exists_asRead_eq_of_not_holdsForeignKey {entries : List (Value × Value)}
    (h : ¬ HoldsForeignKey entries) : ∃ named, entries = asRead named := by
  induction entries with
  | nil => exact ⟨[], rfl⟩
  | cons entry entries ih =>
    obtain ⟨key, value⟩ := entry
    obtain ⟨named, rfl⟩ := ih fun ⟨other, hOther, hForeign⟩ =>
      h ⟨other, List.mem_cons_of_mem _ hOther, hForeign⟩
    cases hKey : toText? key with
    | none => exact absurd ⟨_, List.mem_cons_self, (toText?_eq_none_iff key).mp hKey⟩ h
    | some name =>
      obtain ⟨⟩ := (toText?_eq_some_iff key name).mp hKey
      exact ⟨(name, value) :: named, rfl⟩

/-- A settings file whose keys are texts gives values under distinct names. -/
theorem exists_overrides_of_fileEntries {entries : List (Value × Value)}
    (h : fileEntries snapshot path = .ok entries) (hTexts : ¬ FileHoldsForeignKey snapshot path) :
    ∃ overrides : Overrides, entries = asRead overrides.entries := by
  obtain hFile | ⟨-, rfl⟩ := fileEntries_eq_ok_iff.mp h
  · obtain ⟨named, rfl⟩ := exists_asRead_eq_of_not_holdsForeignKey fun hForeign =>
      hTexts ⟨entries, hFile, hForeign⟩
    have hDistinct : (named.map Prod.fst).Nodup := by
      refine (wellKeyed_of_readFile hFile _ rfl).nodup_of_text ?_
      simp [asRead, Function.comp_def]
    exact ⟨⟨named, hDistinct⟩, rfl⟩
  · exact ⟨⟨[], List.nodup_nil⟩, rfl⟩

end

/-! ## The final check -/

/-- Settings that can be put to use. -/
structure Acceptable (settings : Settings) : Prop where
  logLevel : settings.logLevel ∈ Log.Level.all.map Log.Level.name
  maxWorkers : 0 < settings.maxWorkers
  executor : settings.executor ∈ Executor.all.map Executor.name
  textPreviewLength : 0 ≤ settings.textPreviewLength

theorem check_eq_ok_iff_keeps (settings : Settings) :
    settings.check = .ok () ↔ ∀ rule, settings.keeps rule = true := by
  refine ⟨keeps_of_check, fun h => ?_⟩
  have hNone : settings.brokenRules = [] := by
    refine List.filter_eq_nil_iff.mpr fun rule _ => ?_
    simp [h rule]
  rw [check, hNone, List.isEmpty_nil, if_pos rfl]

theorem check_eq_ok_iff (settings : Settings) : settings.check = .ok () ↔ Acceptable settings := by
  have hLogLevel : settings.keeps .knownLogLevel = true ↔
      settings.logLevel ∈ Log.Level.all.map Log.Level.name := by
    simp only [keeps, Log.Level.ofName?, List.find?_isSome, decide_eq_true_eq, List.mem_map]
  have hExecutor : settings.keeps .knownExecutor = true ↔
      settings.executor ∈ Executor.all.map Executor.name := by
    simp only [keeps, Executor.ofName?, List.find?_isSome, decide_eq_true_eq, List.mem_map]
  rw [check_eq_ok_iff_keeps]
  constructor
  · intro h
    exact ⟨hLogLevel.mp (h _), of_decide_eq_true (h .positiveWorkers), hExecutor.mp (h _),
      of_decide_eq_true (h .lengthNotNegative)⟩
  · intro h rule
    cases rule with
    | knownLogLevel => exact hLogLevel.mpr h.logLevel
    | positiveWorkers => exact decide_eq_true h.maxWorkers
    | knownExecutor => exact hExecutor.mpr h.executor
    | lengthNotNegative => exact decide_eq_true h.textPreviewLength

end DtdConformance.Settings
