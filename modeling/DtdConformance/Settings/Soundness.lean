import DtdConformance.Settings.Fault

/-! # Rules for settings

Settings are not checked when they are made. Before they are put to use, every rule that they break
is reported at once.
-/
namespace DtdConformance.Settings
set_option autoImplicit false

def Rule.all : List Rule := [knownLogLevel, positiveWorkers, knownExecutor, lengthNotNegative]

def keeps (settings : Settings) : Rule → Bool
  | .knownLogLevel => (Log.Level.ofName? settings.logLevel).isSome
  | .positiveWorkers => 0 < settings.maxWorkers
  | .knownExecutor => (Executor.ofName? settings.executor).isSome
  | .lengthNotNegative => 0 ≤ settings.textPreviewLength

def brokenRules (settings : Settings) : List Rule :=
  Rule.all.filter fun rule => !settings.keeps rule

def check (settings : Settings) : Except Fault Unit :=
  if settings.brokenRules.isEmpty then .ok () else .error (.broken settings.brokenRules)

end DtdConformance.Settings
