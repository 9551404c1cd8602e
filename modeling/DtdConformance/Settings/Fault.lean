import DtdConformance.Data.Value
import DtdConformance.Settings.Executor
import DtdConformance.Settings.Field

/-! # Faults of settings

Why settings are refused, wherever they come from.
-/
namespace DtdConformance.Settings
set_option autoImplicit false

open Data (Value)

inductive Rule where
  | knownLogLevel
  | positiveWorkers
  | knownExecutor
  | lengthNotNegative
  deriving Repr, DecidableEq

inductive Fault where
  | unknownKeys (names : List String)
  /-- A key that is no text. It names no setting, and it cannot be listed either. -/
  | foreignKey
  | wrongKind (field : Field) (value : Value)
  | invalidNumber (text : String)
  | fileNotFound (path : String)
  | unreadable (path : String) (reason : String)
  | unsupportedFormat (suffix : String)
  | noMapping (path : String)
  | broken (rules : List Rule)

def Rule.message : Rule → String
  | knownLogLevel =>
    let names := ", ".intercalate (Log.Level.all.map Log.Level.name)
    s!"Log level must be one of {names}"
  | positiveWorkers => "Max workers must be greater than 0"
  | knownExecutor =>
    let names := ", ".intercalate (Executor.all.map Executor.name)
    s!"Executor must be one of {names}"
  | lengthNotNegative => "Text preview length cannot be negative"

/-- How much of a text that is no number a message shows. -/
def shownNumeralLength : Nat := 200

/-- The message of a fault. A key that is no text leaves none. -/
def Fault.message? : Fault → Option String
  | unknownKeys names =>
    let listed := ", ".intercalate names
    some s!"Unknown setting(s): {listed}"
  | foreignKey => none
  | wrongKind field value =>
    some (s!"Setting '{field.name}' must be of type {field.kind.name}, " ++
      s!"got {value.kind} {value.shown}")
  | invalidNumber text =>
    let shown := String.ofList ((Text.quotedChars text.toList).take shownNumeralLength)
    some (s!"Invalid numeric value in {variableOpening}* environment: " ++
      s!"invalid literal for int() with base 10: {shown}")
  | fileNotFound path => some s!"Settings file not found: {path}"
  | unreadable path reason => some s!"Failed to read settings file {path}: {reason}"
  | unsupportedFormat suffix => some s!"Unsupported file format: {suffix}"
  | noMapping path => some s!"Settings file {path} must contain a mapping"
  | broken rules =>
    let listed := "; ".intercalate (rules.map Rule.message)
    some s!"Configuration validation failed: {listed}"

end DtdConformance.Settings
