import DtdConformance.Settings.Manager

/-! # Values of fields

Settings are told by the values of their fields. A value of a data file is brought to the kind of
its field in one way at most, and the values of fields stand for themselves.
-/
namespace DtdConformance.Settings
set_option autoImplicit false

open Data (Value)

/-! ## Fields -/

namespace Field

theorem ofName?_name (field : Field) : ofName? field.name = some field := by
  cases field <;> decide

theorem ofName?_eq_some_iff (text : String) (field : Field) :
    ofName? text = some field ↔ field.name = text := by
  constructor
  · intro h
    simpa using List.find?_some h
  · rintro rfl
    exact ofName?_name field

theorem name_injective : Function.Injective name := by
  intro field other h
  have hSome := ofName?_name field
  rw [h, ofName?_name] at hSome
  exact (Option.some.inj hSome).symm

end Field

theorem ext_valueOf {settings other : Settings}
    (h : ∀ field, settings.valueOf field = other.valueOf field) : settings = other := by
  have hLogLevel := h .logLevel
  have hMaxWorkers := h .maxWorkers
  have hExecutor := h .executor
  have hUseParserLines := h .useParserLines
  have hTextPreviewLength := h .textPreviewLength
  have hHugeTree := h .hugeTree
  simp only [valueOf, Value.text.injEq, Value.int.injEq, Value.bool.injEq] at *
  cases settings
  cases other
  simp_all

theorem kind_valueOf (settings : Settings) (field : Field) :
    (settings.valueOf field).kind = field.kind.name := by
  cases field <;> rfl

/-! ## Bringing a value to a kind -/

def truthWord (b : Bool) : String := if b then "true" else "false"

/-- A value of a data file and the value of a field of the given kind that it is taken for: itself,
the number of a numeral, or the truth value of a word in any letter case. -/
inductive Denotes : Kind → Value → Value → Prop
  | text (s : String) : Denotes .text (.text s) (.text s)
  | integer (n : Int) : Denotes .integer (.int n) (.int n)
  | numeral {s : String} {n : Int} (hNumeral : Text.integer? (Text.trim s.toList) = some n) :
      Denotes .integer (.text s) (.int n)
  | truth (b : Bool) : Denotes .truth (.bool b) (.bool b)
  | word {s : String} {b : Bool}
      (hWord : Text.lower (String.ofList (Text.trim s.toList)) = truthWord b) :
      Denotes .truth (.text s) (.bool b)

theorem truthWord_injective : Function.Injective truthWord :=
  (by decide : ∀ b c, truthWord b = truthWord c → b = c)

theorem truthWord?_eq_some_iff (text : String) (b : Bool) :
    truthWord? text = some b ↔ text = truthWord b := by
  unfold truthWord? truthWord
  cases b <;> grind

theorem toText?_eq_some_iff (value : Value) (s : String) :
    toText? value = some s ↔ Denotes .text value (.text s) := by
  constructor
  · cases value <;> simp only [toText?, reduceCtorEq, false_implies, Option.some.injEq]
    rintro rfl
    exact .text _
  · rintro ⟨⟩
    rfl

theorem toInteger?_eq_some_iff (value : Value) (n : Int) :
    toInteger? value = some n ↔ Denotes .integer value (.int n) := by
  constructor
  · cases value <;> simp only [toInteger?, reduceCtorEq, false_implies, Option.some.injEq]
    · rintro rfl
      exact .integer _
    · exact .numeral
  · intro h
    cases h with
    | integer => rfl
    | numeral hNumeral => exact hNumeral

theorem toTruth?_eq_some_iff (value : Value) (b : Bool) :
    toTruth? value = some b ↔ Denotes .truth value (.bool b) := by
  constructor
  · cases value <;> simp only [toTruth?, reduceCtorEq, false_implies, Option.some.injEq]
    · rintro rfl
      exact .truth _
    · exact fun hWord => .word ((truthWord?_eq_some_iff _ _).mp hWord)
  · intro h
    cases h with
    | truth => rfl
    | word hWord => exact (truthWord?_eq_some_iff _ _).mpr hWord

namespace Denotes

variable {kind : Kind} {value denoted other : Value}

/-- A value stands for one value of a kind at most. -/
theorem unique (h : Denotes kind value denoted) (hOther : Denotes kind value other) :
    other = denoted := by
  cases h with
  | numeral hNumeral =>
    cases hOther with
    | numeral hSame => rw [Option.some.inj (hSame.symm.trans hNumeral)]
  | word hWord =>
    cases hOther with
    | word hSame => rw [truthWord_injective (hSame.symm.trans hWord)]
  | _ =>
    cases hOther
    rfl

end Denotes

theorem denotes_valueOf (settings : Settings) (field : Field) :
    Denotes field.kind (settings.valueOf field) (settings.valueOf field) := by
  cases field <;> constructor

/-! ## Giving a field a value -/

/-- The settings differ in the given field at most. -/
def AgreeBut (field : Field) (settings other : Settings) : Prop :=
  ∀ kept, kept ≠ field → other.valueOf kept = settings.valueOf kept

theorem denotes_of_assign? {settings assigned : Settings} {field : Field} {value : Value}
    (h : settings.assign? field value = some assigned) :
    Denotes field.kind value (assigned.valueOf field) ∧ AgreeBut field settings assigned := by
  have hKept : AgreeBut field settings assigned := by
    cases field
    all_goals
      obtain ⟨_, -, rfl⟩ := Option.map_eq_some_iff.mp h
      intro kept hNe
      cases kept <;> first | rfl | exact absurd rfl hNe
  refine ⟨?_, hKept⟩
  cases field with
  | logLevel | executor =>
    obtain ⟨s, hText, rfl⟩ := Option.map_eq_some_iff.mp h
    exact (toText?_eq_some_iff _ _).mp hText
  | maxWorkers | textPreviewLength =>
    obtain ⟨n, hInteger, rfl⟩ := Option.map_eq_some_iff.mp h
    exact (toInteger?_eq_some_iff _ _).mp hInteger
  | useParserLines | hugeTree =>
    obtain ⟨b, hTruth, rfl⟩ := Option.map_eq_some_iff.mp h
    exact (toTruth?_eq_some_iff _ _).mp hTruth

theorem exists_assign?_of_denotes {field : Field} {value denoted : Value}
    (h : Denotes field.kind value denoted) (settings : Settings) :
    ∃ assigned, settings.assign? field value = some assigned := by
  rw [← Option.isSome_iff_exists]
  cases field with
  | logLevel | executor =>
    cases h
    rfl
  | maxWorkers | textPreviewLength =>
    cases h with
    | integer => rfl
    | numeral hNumeral => simp [assign?, toInteger?, hNumeral]
  | useParserLines | hugeTree =>
    cases h with
    | truth => rfl
    | word hWord =>
      simp [assign?, toTruth?, (truthWord?_eq_some_iff _ _).mpr hWord]

/-- A value is taken for a field exactly when it stands for a value of the field's kind. -/
theorem assign?_eq_some_iff {settings assigned : Settings} {field : Field} {value : Value} :
    settings.assign? field value = some assigned ↔
      Denotes field.kind value (assigned.valueOf field) ∧ AgreeBut field settings assigned := by
  refine ⟨denotes_of_assign?, fun ⟨hDenotes, hKept⟩ => ?_⟩
  obtain ⟨other, hOther⟩ := exists_assign?_of_denotes hDenotes settings
  obtain ⟨hDenotesOther, hKeptOther⟩ := denotes_of_assign? hOther
  have hSame : other = assigned := by
    refine ext_valueOf fun read => ?_
    by_cases hRead : read = field
    · rw [hRead, hDenotes.unique hDenotesOther]
    · rw [hKept read hRead, hKeptOther read hRead]
  rw [hOther, hSame]

end DtdConformance.Settings
