import DtdConformance.Data.Value
import DtdConformance.Settings.Fault
import DtdConformance.Text.Integer
import DtdConformance.Text.LetterCase

/-! # Updating settings

New values for some of the settings, each brought to the kind of its field: a truth value may be
written as a word, and a number as a numeral.
-/
namespace DtdConformance.Settings
set_option autoImplicit false

open Data (Value)

def truthWord? (text : String) : Option Bool :=
  if text = "true" then some true else if text = "false" then some false else none

def toTruth? : Value → Option Bool
  | .bool b => some b
  | .text s => truthWord? (Text.lower (String.ofList (Text.trim s.toList)))
  | _ => none

def toInteger? : Value → Option Int
  | .int n => some n
  | .text s => Text.integer? (Text.trim s.toList)
  | _ => none

def toText? : Value → Option String
  | .text s => some s
  | _ => none

def assign? (settings : Settings) (field : Field) (value : Value) : Option Settings :=
  match field with
  | .logLevel => (toText? value).map fun s => { settings with logLevel := s }
  | .maxWorkers => (toInteger? value).map fun n => { settings with maxWorkers := n }
  | .executor => (toText? value).map fun s => { settings with executor := s }
  | .useParserLines => (toTruth? value).map fun b => { settings with useParserLines := b }
  | .textPreviewLength => (toInteger? value).map fun n => { settings with textPreviewLength := n }
  | .hugeTree => (toTruth? value).map fun b => { settings with hugeTree := b }

def assign (settings : Settings) (field : Field) (value : Value) : Except Fault Settings :=
  match settings.assign? field value with
  | some settings => .ok settings
  | none => .error (.wrongKind field value)

def fieldOf? : Value → Option Field
  | .text s => Field.ofName? s
  | _ => none

def unknownKeys (overrides : List (Value × Value)) : List Value :=
  (overrides.map Prod.fst).filter fun key => (fieldOf? key).isNone

def assignAll (settings : Settings) : List (Value × Value) → Except Fault Settings
  | [] => .ok settings
  | (key, value) :: rest =>
    match fieldOf? key with
    | none => assignAll settings rest
    | some field => do
      let settings ← settings.assign field value
      assignAll settings rest

/-- The settings with new values. Unknown keys are refused before any value is looked at. Only
keys that are texts can be listed in the refusal. -/
def update (settings : Settings) (overrides : List (Value × Value)) : Except Fault Settings :=
  let unknown := unknownKeys overrides
  if unknown.isEmpty then settings.assignAll overrides
  else
    match unknown.mapM toText? with
    | some names => .error (.unknownKeys (names.mergeSort (fun a b => decide (a ≤ b))))
    | none => .error .foreignKey

end DtdConformance.Settings
