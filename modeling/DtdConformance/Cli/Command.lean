import DtdConformance.Cli.Options
import DtdConformance.Cli.Usage
import DtdConformance.Data.JsonText
import DtdConformance.Run.Pool
import DtdConformance.Settings.Manager

/-! # The command

Checks the documents of a command line against a file of declarations. The command is planned, its
batch is run, and the outcome is concluded from the results. A plan is made only if the settings
are accepted, every file can be read and none is blank.
-/
namespace DtdConformance.Cli
set_option autoImplicit false

open Data (Value)
open Run (Result Pool Monitor)
open Settings (Environment Snapshot Manager Operation)

/-- What ends a command without an exit code. -/
inductive Crash where
  | settings (fault : Settings.Fault)
  | pool (fault : Run.PoolFault)

inductive Exit where
  | code (n : Nat)
  | crash (crash : Crash)

namespace Exit

def valid : Exit := code 0

def invalid : Exit := code 1

def unusable : Exit := code 2

end Exit

structure Outcome where
  exit : Exit
  out : String
  err : String

structure World where
  environment : Environment
  snapshot : Snapshot
  showsLog : Bool
  logTime : String
  resultTime : String

def World.shown (world : World) (level : String) (log : List Log.Entry) : String :=
  match world.showsLog, Log.Level.ofName? level with
  | true, some level =>
    "".intercalate ((log.filter fun entry => level.severity ≤ entry.level.severity).map
      fun entry => entry.line world.logTime ++ "\n")
  | _, _ => ""

structure Plan where
  settings : Settings
  paths : List String
  requests : List Run.Request
  asJson : Bool
  withStats : Bool
  log : List Log.Entry

def refuse (message : String) : Outcome := ⟨.unusable, "", message ++ "\n"⟩

def notify : Notice → Outcome
  | .help => ⟨.valid, helpText, ""⟩
  | .version => ⟨.valid, versionText ++ "\n", ""⟩
  | .refused fault => refuse (usage ++ refusal fault)

/-- Settings that were refused. Without a message there is nothing that can be reported. -/
def refuseSettings (fault : Settings.Fault) : Outcome :=
  match fault.message? with
  | some message => refuse s!"Configuration error: {message}"
  | none => ⟨.crash (.settings fault), "", ""⟩

/-- The settings that a command line asks for. -/
def overrides (options : Options) : List (Value × Value) :=
  (options.logLevel.map fun level => (.text "log_level", .text level)).toList ++
    (options.workers.map fun n => (.text "max_workers", .int n)).toList ++
    (options.executor.map fun executor => (.text "executor", .text executor)).toList

/-- Puts the settings of a command line in force: its own over those of its settings file over
those of the manager. They are checked only then. -/
def settle (world : World) (options : Options) : Operation Unit := do
  let path := options.settings.getD ""
  unless path.isEmpty do Operation.load world.snapshot (.ofText path)
  Operation.update (overrides options)
  MonadExcept.ofExcept (← get).settings.check

/-- The shared manager with the settings of a command line in force, and what is left of it in any
case. It is made if there is none. -/
def configureShared (world : World) (options : Options) (shared : Option Manager) :
    Except Settings.Fault Manager × Option Manager :=
  match shared.elim (Manager.new world.environment world.snapshot "") .ok with
  | .error fault => (.error fault, shared)
  | .ok manager =>
    let (outcome, manager) := (settle world options).on manager
    (outcome.map fun _ => manager, some manager)

def entry (level : Log.Level) (text : String) : Log.Entry := ⟨.commandLine, level, text⟩

/-- At the finest level the settings are reported. -/
def opening (manager : Manager) : List Log.Entry :=
  if manager.settings.logLevel = Log.Level.debug.name then
    [entry .info Settings.defaultsReport,
      entry .debug s!"Active configuration: {manager.summary.shown}"]
  else []

def readText (world : World) (kind path : String) : Except String (List Char) :=
  let place := Files.Path.ofText path
  match (world.snapshot place).text place with
  | .ok cs => .ok cs
  | .error fault => .error s!"Cannot read {kind} file {path}: {fault.message}"

/-- The texts of the declarations and of the documents, none of them blank. -/
def readTexts (world : World) (options : Options) :
    Except String (List Char × List (List Char)) := do
  let declarations ← readText world "DTD" options.declarations
  let documents ← options.documents.mapM (readText world "XML")
  unless Text.hasText declarations do throw s!"DTD file {options.declarations} is empty"
  let blank := (options.documents.zip documents).filter fun document => !Text.hasText document.2
  unless blank.isEmpty do
    let listed := ", ".intercalate (blank.map Prod.fst)
    throw s!"XML file(s) empty: {listed}"
  return (declarations, documents)

/-- A plan with the settings of a manager. -/
def planWith (world : World) (options : Options) (manager : Manager) : Except Outcome Plan :=
  let log := opening manager
  match readTexts world options with
  | .error message =>
    let shown := world.shown manager.settings.logLevel log
    .error ⟨.unusable, "", shown ++ message ++ "\n"⟩
  | .ok (declarations, documents) =>
    .ok ⟨manager.settings, options.documents,
      documents.map fun document => ⟨declarations, document⟩, options.json, options.stats, log⟩

def planShared (world : World) (words : List String) (shared : Option Manager) :
    Except Outcome Plan × Option Manager :=
  match Options.ofWords words with
  | .error notice => (.error (notify notice), shared)
  | .ok options =>
    match configureShared world options shared with
    | (.error fault, left) => (.error (refuseSettings fault), left)
    | (.ok manager, left) => (planWith world options manager, left)

def plan (world : World) (words : List String) : Except Outcome Plan :=
  (planShared world words none).1

def Plan.pool (plan : Plan) : Except Crash (Pool × List Log.Entry) :=
  match Pool.new plan.settings none none plan.withStats with
  | .error fault => .error (.pool fault)
  | .ok made => .ok made

def Plan.batch (plan : Plan) (world : World) (pool : Pool) : Except Crash Run.Pool.Batch :=
  match pool.batch world.resultTime plan.requests with
  | .error fault => .error (.pool fault)
  | .ok (batch, _) => .ok batch

def payload (path : String) (result : Result) : Value :=
  .mapping [(.text "file", .text path), (.text "is_valid", .bool result.isValid),
    (.text "errors", .list (result.errors.map .text)), (.text "summary", .text result.summary),
    (.text "timestamp", .text result.time)]

/-- The results as JSON. A single result is not put into a list. -/
def jsonText (items : List (String × Result)) : String :=
  match items.map fun item => payload item.1 item.2 with
  | [single] => Data.Json.written single ++ "\n"
  | several => Data.Json.written (.list several) ++ "\n"

def plainText (items : List (String × Result)) : String :=
  "".intercalate (items.map fun item => item.2.text item.1 ++ "\n")

/-- What a command shows of the results of its plan. The log stands before the report of the
monitor, if one was asked for, and the count of valid documents after it. -/
def Plan.conclude (plan : Plan) (world : World) (log : List Log.Entry) (results : List Result)
    (report : Option String) : Outcome :=
  let items := plan.paths.zip results
  let validCount := results.countP Result.isValid
  let level := plan.settings.logLevel
  { exit := if validCount = results.length then .valid else .invalid
    out := if plan.asJson then jsonText items else plainText items
    err := world.shown level (plan.log ++ log) ++ (report.map (· ++ "\n")).getD "" ++
      world.shown level [entry .info s!"{validCount}/{results.length} document(s) valid"] }

/-- What becomes of a plan. The monitor counts time in events. -/
def Plan.outcome (plan : Plan) (world : World) (measured : Monitor.Measure → String) :
    Except Outcome Outcome := do
  let crashed (crash : Crash) : Outcome := ⟨.crash crash, "", ""⟩
  let (pool, making) ← plan.pool.mapError crashed
  let batch ← (plan.batch world pool).mapError crashed
  let monitor : Monitor := { startedAt := 0 }
  let monitor := if pool.isMonitored then monitor.hearBatch 0 batch.events else monitor
  let now := batch.events.flatten.length
  let report := if plan.withStats then some (monitor.report now measured) else none
  return plan.conclude world (making ++ batch.log) batch.results report

/-- The outcome of a command with the given words, and what is left of the shared manager. -/
def runShared (world : World) (measured : Monitor.Measure → String) (words : List String)
    (shared : Option Manager) : Outcome × Option Manager :=
  let (planned, left) := planShared world words shared
  match planned.bind fun plan => plan.outcome world measured with
  | .ok outcome | .error outcome => (outcome, left)

/-- The outcome of a command that is the first to ask for the manager. -/
def run (world : World) (measured : Monitor.Measure → String) (words : List String) : Outcome :=
  (runShared world measured words none).1

end DtdConformance.Cli
