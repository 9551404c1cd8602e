import DtdConformance.Settings.Update

/-! # Settings from the environment

Each field has an environment variable. The words for the log level and the pool may be written in
any letter case, and a truth value is true only if it is the word for it.
-/
namespace DtdConformance.Settings
set_option autoImplicit false

/-- The variables that are set, each with its text. -/
abbrev Environment : Type := List (String × String)

namespace Environment

def text? (environment : Environment) (field : Field) : Option String :=
  environment.lookup field.environmentVariable

def set (environment : Environment) (name : String) (text? : Option String) : Environment :=
  (text?.map fun text => (name, text)).toList ++ environment.filter fun entry => entry.1 ≠ name

def integer (environment : Environment) (field : Field) (default : Int) : Except Fault Int :=
  match environment.text? field with
  | none => .ok default
  | some text =>
    match Text.integer? text.toList with
    | some n => .ok n
    | none => .error (.invalidNumber text)

def truth (environment : Environment) (field : Field) (default : Bool) : Bool :=
  match environment.text? field with
  | none => default
  | some text => Text.lower text = "true"

end Environment

def ofEnvironment (environment : Environment) : Except Fault Settings := do
  let default : Settings := {}
  let maxWorkers ← environment.integer .maxWorkers default.maxWorkers
  let textPreviewLength ← environment.integer .textPreviewLength default.textPreviewLength
  return {
    logLevel := Text.upper ((environment.text? .logLevel).getD default.logLevel)
    maxWorkers
    executor := Text.lower ((environment.text? .executor).getD default.executor)
    useParserLines := environment.truth .useParserLines default.useParserLines
    textPreviewLength
    hugeTree := environment.truth .hugeTree default.hugeTree }

end DtdConformance.Settings
