import DtdConformance.Proofs.Cli.Layers

/-! # What a command comes to

A command is refused for its settings or for its files, and then nothing is checked or shown. In all
other cases each document is checked alone with the settings of the command, and the results decide
about the exit code. How results are shown has no part in it.
-/
namespace DtdConformance.Cli
set_option autoImplicit false

open Run (Result Monitor)
open Settings (Acceptable Manager Overrides)
open Settings.Overrides (asRead)

/-! ## The texts of a command -/

/-- The text that an operand names. -/
def operandText (world : World) (path : String) : Except Files.ReadFault (List Char) :=
  (world.snapshot (.ofText path)).text (.ofText path)

/-- Why the files of a command cannot be used. -/
inductive Unusable (world : World) (options : Options) : Prop
  | unreadable {path : String} {fault : Files.ReadFault}
      (hPath : path ∈ options.declarations :: options.documents)
      (hText : operandText world path = .error fault)
  | blank {path : String} {cs : List Char}
      (hPath : path ∈ options.declarations :: options.documents)
      (hText : operandText world path = .ok cs) (hBlank : ∀ c ∈ cs, Text.isBlank c = true)

/-- The text that an operand names is there and not blank. -/
structure Supplies (world : World) (path : String) (cs : List Char) : Prop where
  read : operandText world path = .ok cs
  nonblank : ∃ c ∈ cs, Text.isBlank c = false

theorem mapM_eq_ok_iff {α β ε : Type} {f : α → Except ε β} {items : List α} {made : List β} :
    items.mapM f = .ok made ↔ List.Forall₂ (fun item b => f item = .ok b) items made := by
  induction items generalizing made with
  | nil => cases made <;> simp [pure, Except.pure]
  | cons item items ih =>
    rw [List.mapM_cons]
    cases hItem : f item with
    | error fault => cases made <;> simp [hItem, bind, Except.bind]
    | ok b =>
      cases hItems : items.mapM f with
      | error fault => cases made <;> simp [hItem, ← ih, hItems, bind, Except.bind]
      | ok rest => cases made <;> simp [hItem, ← ih, hItems, bind, Except.bind, pure, Except.pure]

section

variable {world : World} {options : Options} {declarations : List Char}
  {documents : List (List Char)}

theorem readText_eq_ok_iff {kind path : String} {cs : List Char} :
    readText world kind path = .ok cs ↔ operandText world path = .ok cs := by
  unfold readText operandText
  dsimp only
  split
  · next hText => rw [hText]; simp
  · next hText => simp [hText]

theorem readTexts_eq_ok_iff_hasText :
    readTexts world options = .ok (declarations, documents) ↔
      readText world "DTD" options.declarations = .ok declarations ∧
        options.documents.mapM (readText world "XML") = .ok documents ∧
        Text.hasText declarations = true ∧
        ∀ document ∈ options.documents.zip documents, Text.hasText document.2 = true := by
  simp only [readTexts, bind, Except.bind, pure, Except.pure, throw, throwThe,
    MonadExceptOf.throw]
  cases readText world "DTD" options.declarations with
  | error message => simp
  | ok read =>
    cases options.documents.mapM (readText world "XML") with
    | error message => simp
    | ok reads =>
      have hBlank : ((options.documents.zip reads).filter fun document =>
          !Text.hasText document.2).isEmpty = true ↔
            ∀ document ∈ options.documents.zip reads, Text.hasText document.2 = true := by
        simp [List.filter_eq_nil_iff]
      simp only [hBlank]
      split
      · split
        · grind
        · grind
      · grind

theorem readTexts_eq_ok_iff : readTexts world options = .ok (declarations, documents) ↔
    Supplies world options.declarations declarations ∧
      List.Forall₂ (Supplies world) options.documents documents := by
  rw [readTexts_eq_ok_iff_hasText, readText_eq_ok_iff, mapM_eq_ok_iff]
  simp only [readText_eq_ok_iff, Text.hasText_eq_true_iff]
  rw [List.forall₂_iff_zip, List.forall₂_iff_zip]
  constructor
  · rintro ⟨hRead, ⟨hLength, hReads⟩, hText, hTexts⟩
    exact ⟨⟨hRead, hText⟩, hLength, fun hMem => ⟨hReads hMem, hTexts _ hMem⟩⟩
  · rintro ⟨hDeclarations, hLength, hDocuments⟩
    exact ⟨hDeclarations.read, ⟨hLength, fun hMem => (hDocuments hMem).read⟩,
      hDeclarations.nonblank, fun _ hMem => (hDocuments hMem).nonblank⟩

theorem exists_forall₂_iff {paths : List String} :
    (∃ documents, List.Forall₂ (Supplies world) paths documents) ↔
      ∀ path ∈ paths, ∃ cs, Supplies world path cs := by
  induction paths with
  | nil => simp
  | cons path paths ih =>
    rw [List.forall_mem_cons, ← ih]
    simp [List.forall₂_cons_left_iff]

theorem not_unusable_iff : ¬ Unusable world options ↔
    ∀ path ∈ options.declarations :: options.documents, ∃ cs, Supplies world path cs := by
  constructor
  · intro h path hPath
    cases hText : operandText world path with
    | error fault => exact absurd (.unreadable hPath hText) h
    | ok cs =>
      refine ⟨cs, hText, Classical.byContradiction fun hNone => h (.blank hPath hText ?_)⟩
      simpa using hNone
  · rintro h (⟨hPath, hText⟩ | ⟨hPath, hText, hBlank⟩)
    · obtain ⟨cs, hSupplies⟩ := h _ hPath
      cases hText.symm.trans hSupplies.read
    · obtain ⟨cs, hSupplies⟩ := h _ hPath
      cases hText.symm.trans hSupplies.read
      obtain ⟨c, hMem, hVisible⟩ := hSupplies.nonblank
      cases (hBlank c hMem).symm.trans hVisible

theorem exists_readTexts_eq_ok_iff :
    (∃ texts, readTexts world options = .ok texts) ↔ ¬ Unusable world options := by
  rw [not_unusable_iff, List.forall_mem_cons, ← exists_forall₂_iff]
  simp only [Prod.exists, readTexts_eq_ok_iff, exists_and_left, exists_and_right]

end

/-! ## What is checked -/

/-- A command is refused for its settings or for its files. -/
def Refused (world : World) (options : Options) : Prop :=
  Misconfigured world options ∨ Unusable world options

/-- What a command checks that is not refused: its documents, with the settings that prevail. -/
structure Validation (world : World) (options : Options) where
  settings : Settings
  declarations : List Char
  documents : List (List Char)
  effective : Effective world options settings
  acceptable : Acceptable settings
  declared : Supplies world options.declarations declarations
  supplied : List.Forall₂ (Supplies world) options.documents documents

namespace Validation

variable {world : World} {options : Options}

/-- The result of checking each document alone. -/
def results (validation : Validation world options) : List Result :=
  validation.documents.map
    (Run.check validation.settings world.resultTime validation.declarations)

theorem length_results (validation : Validation world options) :
    validation.results.length = options.documents.length := by
  rw [results, List.length_map, validation.supplied.length_eq]

def exit (validation : Validation world options) : Exit :=
  if ∀ result ∈ validation.results, result.isValid = true then .valid else .invalid

/-- The results under the names of their documents, in the order of the command line. -/
def shown (validation : Validation world options) : String :=
  (if options.json then jsonText else plainText) (options.documents.zip validation.results)

end Validation

section

variable {world : World} {options : Options} {words : List String} {left : Option Manager}
  {manager : Manager}

theorem run_of_plan_error {outcome : Outcome} (h : plan world words = .error outcome)
    (measured : Monitor.Measure → String) : run world measured words = outcome := by
  simp only [run, runShared, show (planShared world words none).1 = .error outcome from h]
  rfl

theorem run_of_plan_ok {planned : Plan} {outcome : Outcome} {measured : Monitor.Measure → String}
    (h : plan world words = .ok planned) (hOutcome : planned.outcome world measured = .ok outcome) :
    run world measured words = outcome := by
  simp only [run, runShared, show (planShared world words none).1 = .ok planned from h,
    Except.bind, hOutcome]

theorem plan_of_refused {fault : Settings.Fault} (hWords : Options.ofWords words = .ok options)
    (h : configureShared world options none = (.error fault, left)) :
    plan world words = .error (refuseSettings fault) := by
  simp only [plan, planShared, hWords, h]

theorem plan_of_configured (hWords : Options.ofWords words = .ok options)
    (h : configureShared world options none = (.ok manager, left)) :
    plan world words = planWith world options manager := by
  simp only [plan, planShared, hWords, h]

theorem planWith_of_error {message : String} (h : readTexts world options = .error message)
    (manager : Manager) : ∃ err, planWith world options manager = .error ⟨.code 2, "", err⟩ := by
  rw [planWith, h]
  exact ⟨_, rfl⟩

theorem planWith_of_ok {declarations : List Char} {documents : List (List Char)}
    (h : readTexts world options = .ok (declarations, documents)) (manager : Manager) :
    ∃ planned, planWith world options manager = .ok planned ∧
      planned.settings = manager.settings ∧ planned.paths = options.documents ∧
      planned.asJson = options.json ∧
      planned.requests = documents.map fun document => ⟨declarations, document⟩ := by
  rw [planWith, h]
  exact ⟨_, rfl, rfl, rfl, rfl, rfl⟩

/-- The exit code and what is shown when nothing has been refused. -/
theorem run_of_read {declarations : List Char} {documents : List (List Char)}
    (hWords : Options.ofWords words = .ok options)
    (hConfigured : configureShared world options none = (.ok manager, left))
    (hRead : readTexts world options = .ok (declarations, documents))
    (measured : Monitor.Measure → String) :
    let results := documents.map (Run.check manager.settings world.resultTime declarations)
    (run world measured words).exit =
        (if ∀ result ∈ results, result.isValid = true then .valid else .invalid) ∧
      (run world measured words).out =
        (if options.json then jsonText else plainText) (options.documents.zip results) := by
  intro results
  obtain ⟨planned, hPlan, hSettings, hPaths, hJson, hRequests⟩ := planWith_of_ok hRead manager
  have hCheck : planned.settings.check = .ok () := by
    rw [hSettings]
    exact check_of_configured hConfigured
  obtain ⟨log, report, hOutcome⟩ := exists_outcome_eq_conclude planned hCheck world measured
  have hResults : (planned.requests.map fun request => Run.check planned.settings
      world.resultTime request.declarations request.document) = results := by
    rw [hRequests, hSettings, List.map_map]
    rfl
  rw [hResults] at hOutcome
  rw [run_of_plan_ok ((plan_of_configured hWords hConfigured).trans hPlan) hOutcome]
  refine ⟨?_, ?_⟩
  · simp only [Plan.conclude, List.countP_eq_length]
  · simp only [Plan.conclude, hPaths, hJson]
    cases options.json <;> rfl

variable (hWords : Options.ofWords words = .ok options)
  (hTexts : ¬ NamesForeignKey world options)
include hWords hTexts

/-- A command that is refused plans nothing. -/
theorem plan_of_misconfigured (h : Misconfigured world options) :
    ∃ err, plan world words = .error ⟨.code 2, "", err⟩ := by
  cases hConfigured : configureShared world options none with
  | mk configured left =>
    cases configured with
    | ok manager => exact absurd h (effective_of_configured hTexts hConfigured).2
    | error fault =>
      have hFault : fault ≠ .foreignKey := by
        rintro rfl
        exact hTexts (configureShared_eq_foreignKey_iff.mp ⟨left, hConfigured⟩).2
      obtain ⟨message, hMessage⟩ := Option.ne_none_iff_exists'.mp
        (mt (Settings.Fault.message?_eq_none_iff fault).mp hFault)
      rw [plan_of_refused hWords hConfigured, refuseSettings_of_message hMessage]
      exact ⟨_, rfl⟩

theorem plan_of_refusal (h : Refused world options) :
    ∃ err, plan world words = .error ⟨.code 2, "", err⟩ := by
  by_cases hMisconfigured : Misconfigured world options
  · exact plan_of_misconfigured hWords hTexts hMisconfigured
  · obtain ⟨manager, left, hConfigured⟩ :=
      exists_configured_of_not_misconfigured hTexts hMisconfigured
    have hUnusable := h.resolve_left hMisconfigured
    rw [plan_of_configured hWords hConfigured]
    cases hRead : readTexts world options with
    | ok texts => exact absurd hUnusable (exists_readTexts_eq_ok_iff.mp ⟨texts, hRead⟩)
    | error message => exact planWith_of_error hRead manager

theorem run_of_not_refused (h : ¬ Refused world options) (measured : Monitor.Measure → String) :
    ∃ validation : Validation world options,
      (run world measured words).exit = validation.exit ∧
        (run world measured words).out = validation.shown := by
  obtain ⟨hSettings, hFiles⟩ := not_or.mp h
  obtain ⟨manager, left, hConfigured⟩ := exists_configured_of_not_misconfigured hTexts hSettings
  obtain ⟨⟨declarations, documents⟩, hRead⟩ := exists_readTexts_eq_ok_iff.mpr hFiles
  obtain ⟨hDeclared, hSupplied⟩ := readTexts_eq_ok_iff.mp hRead
  exact ⟨⟨manager.settings, declarations, documents, (effective_of_configured hTexts hConfigured).1,
    (Settings.check_eq_ok_iff _).mp (check_of_configured hConfigured), hDeclared, hSupplied⟩,
    run_of_read hWords hConfigured hRead measured⟩

end

/-- How results are shown has no part in the exit code. -/
theorem exit_run_of_shown {world : World} {words others : List String} {options : Options}
    {json stats : Bool} (hWords : Options.ofWords words = .ok options)
    (hOthers : Options.ofWords others = .ok { options with json, stats })
    (measured : Monitor.Measure → String) :
    (run world measured others).exit = (run world measured words).exit := by
  have hTexts : readTexts world { options with json, stats } = readTexts world options := rfl
  cases hConfigured : configureShared world options none with
  | mk configured left =>
    have hSame : configureShared world { options with json, stats } none = (configured, left) :=
      hConfigured
    cases configured with
    | error fault =>
      rw [run_of_plan_error (plan_of_refused hWords hConfigured),
        run_of_plan_error (plan_of_refused hOthers hSame)]
    | ok manager =>
      cases hRead : readTexts world options with
      | error message =>
        obtain ⟨err, hRefused⟩ := planWith_of_error hRead manager
        obtain ⟨errOthers, hRefusedOthers⟩ := planWith_of_error (hTexts.trans hRead) manager
        rw [run_of_plan_error ((plan_of_configured hWords hConfigured).trans hRefused),
          run_of_plan_error ((plan_of_configured hOthers hSame).trans hRefusedOthers)]
      | ok texts =>
        rw [(run_of_read hWords hConfigured hRead measured).1,
          (run_of_read hOthers hSame (hTexts.trans hRead) measured).1]

/-- A directory with a settings file, declarations and a document, and two variables that are set. -/
def layered : World where
  environment := [("DTD_VALIDATOR_EXECUTOR", "Process"), ("DTD_VALIDATOR_MAX_WORKERS", "8")]
  snapshot path :=
    if path.shown = "s.json" then
      .file "\x7b\x22max_workers\x22: \x222\x22, \x22text_preview_length\x22: \x22 7 \x22\x7d".toUTF8.toList
    else if path.shown = "d.dtd" then .file "<!ELEMENT r EMPTY>".toUTF8.toList
    else .file "<r/>".toUTF8.toList
  showsLog := true
  logTime := ""
  resultTime := ""

def layeredWords : List String := ["--settings", "s.json", "--workers", "3", "d.dtd", "x.xml"]

def layeredOptions : Options :=
  ⟨"d.dtd", ["x.xml"], false, false, none, some 3, none, some "s.json"⟩

def layeredOverrides : Overrides where
  entries := [("max_workers", .text "2"), ("text_preview_length", .text " 7 ")]
  distinct := by decide

theorem filed_layered :
    filed layered layeredOptions = .ok (asRead layeredOverrides.entries) := by
  have hTexts : (filed layered layeredOptions).toOption.map (List.map fun entry =>
      (Settings.toText? entry.1, Settings.toText? entry.2)) =
        some [(some "max_workers", some "2"), (some "text_preview_length", some " 7 ")] := by
    decide +kernel
  cases hFiled : filed layered layeredOptions with
  | error fault =>
    rw [hFiled] at hTexts
    cases hTexts
  | ok entries =>
    simp only [hFiled, Except.toOption, Option.map_some, Option.some.injEq,
      List.map_eq_cons_iff, List.map_eq_nil_iff, Prod.mk.injEq, Settings.toText?_eq_some_iff]
      at hTexts
    obtain ⟨⟨_, _⟩, _, rfl, ⟨⟨⟩, ⟨⟩⟩, ⟨_, _⟩, _, rfl, ⟨⟨⟩, ⟨⟩⟩, rfl⟩ := hTexts
    rfl

theorem not_namesForeignKey_layered : ¬ NamesForeignKey layered layeredOptions := by
  rintro ⟨path, hPath, -, entries, hRead, hForeign⟩
  obtain rfl := Option.some.inj hPath
  have hEntries : filed layered layeredOptions = .ok entries :=
    Settings.fileEntries_eq_ok_iff.mpr (.inl hRead)
  rw [Except.ok.inj (hEntries.symm.trans filed_layered)] at hForeign
  exact Settings.not_holdsForeignKey_asRead _ hForeign

/-- Each layer gives one field its value, and what a lower layer says of it does not count. -/
theorem effective_layered : Effective layered layeredOptions
    { maxWorkers := 3, executor := "process", textPreviewLength := 7 } := by
  refine ⟨layeredOverrides, filed_layered, fun field => ?_⟩
  cases field with
  | maxWorkers => exact .commanded rfl
  | textPreviewLength =>
    have hNumeral : Text.integer? (Text.trim " 7 ".toList) = some 7 := by decide +kernel
    exact .filed rfl (.tail _ (.head _)) (.numeral hNumeral)
  | executor =>
    have hLower : Text.lower "Process" = "process" := by decide +kernel
    exact .surrounding rfl (by decide) (hLower ▸ .given rfl (.executor "Process"))
  | logLevel | useParserLines | hugeTree =>
    exact .surrounding rfl (by decide) (.absent (by decide) rfl)

end DtdConformance.Cli
