import DtdConformance.Data.Json
import DtdConformance.Data.Yaml
import DtdConformance.Files.Directory
import DtdConformance.Settings.Environment
import DtdConformance.Settings.Soundness

/-! # Managing settings

A manager holds the settings in force. They come from the environment, and a settings file may be
laid over them. The manager remembers the file so that both can be read again.
-/
namespace DtdConformance.Settings
set_option autoImplicit false

open Data (Value)
open Files

inductive Format where
  | json
  | yaml
  deriving Repr, DecidableEq

namespace Format

def ofSuffix? (suffix : String) : Option Format :=
  let suffix := Text.lower suffix
  if suffix = ".yaml" ∨ suffix = ".yml" then some yaml
  else if suffix = ".json" then some json
  else none

def read? : Format → List Char → Option Value
  | json, cs => Data.Json.read? cs
  | yaml, cs => Data.Yaml.read? cs

end Format

/-- What stands under each path. -/
abbrev Snapshot : Type := Path → Entry

/-- The value that a settings file holds. The suffix is looked at once the file is open. -/
def readFile (snapshot : Snapshot) (path : Path) : Except Fault Value := do
  let entry := snapshot path
  unless entry.exists do throw (.fileNotFound path.shown)
  match entry, Format.ofSuffix? path.suffix with
  | .file _, none => throw (.unsupportedFormat path.suffix)
  | _, format? =>
    match entry.text path with
    | .error fault => throw (.unreadable path.shown fault.message)
    | .ok cs =>
      match format?.bind fun format => format.read? cs with
      | some value => return value
      | none => throw (.unreadable path.shown "the text has no value")

/-- The entries of a settings file. A file that holds nothing has none. -/
def fileEntries (snapshot : Snapshot) (path : Path) : Except Fault (List (Value × Value)) := do
  match ← readFile snapshot path with
  | .null => return []
  | .mapping entries => return entries
  | _ => throw (.noMapping path.shown)

structure Manager where
  settings : Settings
  path : Option Path := none
  deriving Repr, DecidableEq

/-- Something done to a manager, which may end in a fault. What has been changed by then stays
changed. -/
abbrev Operation (α : Type) : Type := ExceptT Fault (StateM Manager) α

namespace Operation

def on {α : Type} (operation : Operation α) (manager : Manager) : Except Fault α × Manager :=
  (operation.run.run manager).run

/-- Lays a settings file over the settings and remembers it. -/
def load (snapshot : Snapshot) (path : Path) : Operation Unit := do
  let entries ← MonadExcept.ofExcept (fileEntries snapshot path)
  let settings ← MonadExcept.ofExcept ((← get).settings.update entries)
  modify fun manager => { manager with settings }
  modify fun manager => { manager with path := some path }

def update (overrides : List (Value × Value)) : Operation Unit := do
  let settings ← MonadExcept.ofExcept ((← get).settings.update overrides)
  modify fun manager => { manager with settings }

/-- Reads the environment and then the settings file again. -/
def reload (environment : Environment) (snapshot : Snapshot) : Operation Unit := do
  let settings ← MonadExcept.ofExcept (ofEnvironment environment)
  modify fun manager => { manager with settings }
  match (← get).path with
  | none => return
  | some path => load snapshot path

end Operation

namespace Manager

/-- The manager when nothing has been refused. -/
def after (manager : Manager) (operation : Operation Unit) : Except Fault Manager :=
  match operation.on manager with
  | (.ok _, manager) => .ok manager
  | (.error fault, _) => .error fault

def load (snapshot : Snapshot) (manager : Manager) (path : Path) : Except Fault Manager :=
  manager.after (.load snapshot path)

def new (environment : Environment) (snapshot : Snapshot) (path : String) :
    Except Fault Manager := do
  let manager : Manager := { settings := ← ofEnvironment environment }
  if path.isEmpty then return manager else manager.load snapshot (.ofText path)

def update (manager : Manager) (overrides : List (Value × Value)) : Except Fault Manager :=
  manager.after (.update overrides)

/-- The settings of the environment remain when the file is refused. -/
def reload (environment : Environment) (snapshot : Snapshot) (manager : Manager) :
    Except Fault Unit × Manager :=
  (Operation.reload environment snapshot).on manager

end Manager

def valueOf (settings : Settings) : Field → Value
  | .logLevel => .text settings.logLevel
  | .maxWorkers => .int settings.maxWorkers
  | .executor => .text settings.executor
  | .useParserLines => .bool settings.useParserLines
  | .textPreviewLength => .int settings.textPreviewLength
  | .hugeTree => .bool settings.hugeTree

def toValue (settings : Settings) : Value :=
  .mapping (Field.all.map fun field => (.text field.name, settings.valueOf field))

def Manager.summary (manager : Manager) : Value :=
  .mapping [(.text "settings", manager.settings.toValue),
    (.text "settings_file", (manager.path.map fun path => .text path.shown).getD .null)]

def defaults : List (String × Value) :=
  let default : Settings := {}
  (Field.all.map fun field => (field.constant, default.valueOf field)).mergeSort
    fun a b => decide (a.1 ≤ b.1)

/-- A value as a line of a report shows it: a text without quotes. -/
def plainText : Value → String
  | .text s => s
  | other => other.shown

def defaultsReport : String :=
  "\n".intercalate ("Validation Configuration Defaults:" ::
    defaults.map fun (name, value) => s!"  {name}: {plainText value}")

/-- The manager that all callers share, once one has asked for it, and the manager of the current
caller if that is another one. -/
structure Managers where
  shared : Option Manager := none
  own : Option Manager := none
  deriving Repr, DecidableEq

namespace Managers

def current? (managers : Managers) : Option Manager := managers.own.or managers.shared

def setCurrent (managers : Managers) (manager : Manager) : Managers :=
  if managers.own.isSome then { managers with own := some manager }
  else { managers with shared := some manager }

/-- The current caller takes the shared manager, which is made if there is none. It is told whether
that was its manager before. -/
def takeShared (environment : Environment) (snapshot : Snapshot) (path : String)
    (managers : Managers) : Except Fault (Bool × Managers) :=
  match managers.shared with
  | some _ => .ok (managers.own.isNone, { managers with own := none })
  | none => do
    let manager ← Manager.new environment snapshot path
    return (false, ⟨some manager, none⟩)

/-- The shared manager is given up. The current caller keeps its manager. -/
def reset (managers : Managers) : Managers := ⟨none, managers.current?⟩

end Managers

end DtdConformance.Settings
