import DtdConformance.Run.Session
import DtdConformance.Settings.Executor
import DtdConformance.Text.LetterCase

/-! # Pools of workers

A pool runs independent requests on several workers and hands back one result for each in the
order of the requests. Workers that are processes of their own report nothing to a monitor or to
a log. A pool is started by the first request after its making or its shutdown.
-/
namespace DtdConformance.Run
set_option autoImplicit false

inductive PoolFault where
  | unknownExecutor (name : String)
  | noWorkers
  deriving Repr, DecidableEq

def PoolFault.message : PoolFault → String
  | unknownExecutor name => s!"Unknown executor kind: {name}"
  | noWorkers => "max_workers must be greater than 0"

structure Request where
  declarations : List Char
  document : List Char
  deriving Repr, DecidableEq

inductive Completion where
  | result (result : Result)
  | died (text : String)
  deriving Repr, DecidableEq

def Completion.toResult (time : String) : Completion → Result
  | .result outcome => outcome
  | .died text => (Ending.failed (.internal text)).result time

structure Pool where
  settings : Settings
  workers : Int
  executor : Executor
  isMonitored : Bool
  isRunning : Bool := false
  deriving Repr, DecidableEq

namespace Pool

def entry (level : Log.Level) (text : String) : Log.Entry := ⟨.pool, level, text⟩

/-- A pool whose size and kind are those of the settings unless others are given. A size of zero
and an empty kind count as not given. -/
def new (settings : Settings) (workers : Option Int) (executor : Option String)
    (isMonitored : Bool) : Except PoolFault (Pool × List Log.Entry) :=
  let workers := (workers.filter (· ≠ 0)).getD settings.maxWorkers
  let name := Text.lower ((executor.filter (· ≠ "")).getD settings.executor)
  match Executor.ofName? name with
  | none => .error (.unknownExecutor name)
  | some .thread => .ok ({ settings, workers, executor := .thread, isMonitored }, [])
  | some .process =>
    .ok ({ settings, workers, executor := .process, isMonitored := false },
      if isMonitored then [entry .warning "Performance monitor ignored with process executor"]
      else [])

def start (pool : Pool) : Except PoolFault (Pool × List Log.Entry) :=
  if pool.isRunning then .ok (pool, [])
  else if pool.workers ≤ 0 then .error .noWorkers
  else .ok ({ pool with isRunning := true },
    [entry .info (s!"ParallelCoordinator started {pool.executor.name} pool with " ++
      s!"{pool.workers} workers")])

def shutdown (pool : Pool) : Pool := { pool with isRunning := false }

def newRun (pool : Pool) (time : String) (request : Request) : DtdConformance.Run :=
  ofTexts pool.settings time request.declarations request.document

/-- The events of a worker that are seen outside of it. -/
def seen (pool : Pool) (events : List Event) : List Event :=
  match pool.executor with
  | .thread => events
  | .process => []

def submit (pool : Pool) (time : String) (request : Request) :
    Except PoolFault (Result × Pool × List Event) := do
  let (pool, log) ← pool.start
  let (result, _, events) := (pool.newRun time request).completed
  return (result, pool, log.map .logged ++ pool.seen events)

def deaths (number : Nat) : List Completion → List Log.Entry
  | [] => []
  | .result _ :: rest => deaths (number + 1) rest
  | .died text :: rest =>
    entry .error s!"Batch item {number}: worker failed: {text}" :: deaths (number + 1) rest

def collect (time : String) (completions : List Completion) : List Result × List Log.Entry :=
  (completions.map (Completion.toResult time), deaths 1 completions)

structure Batch where
  results : List Result
  /-- What is told before the first request is run. -/
  opening : List Log.Entry
  /-- What each request does, as far as it is seen. -/
  events : List (List Event)
  closing : List Log.Entry

def entries (events : List Event) : List Log.Entry :=
  events.filterMap fun event =>
    match event with
    | .logged entry => some entry
    | _ => none

def Batch.log (batch : Batch) : List Log.Entry :=
  batch.opening ++ batch.events.flatMap entries ++ batch.closing

/-- A batch without requests has no results, and starts no workers. -/
def Batch.none : Batch := ⟨[], [], [], []⟩

def openBatch (pool : Pool) (size : Nat) : Except PoolFault (Pool × List Log.Entry) := do
  let (pool, log) ← pool.start
  return (pool, entry .info s!"Validating batch of {size} document(s)" :: log)

def batch (pool : Pool) (time : String) (requests : List Request) :
    Except PoolFault (Batch × Pool) :=
  if requests.isEmpty then .ok (.none, pool)
  else do
    let (pool, opening) ← pool.openBatch requests.length
    let outcomes := requests.map fun request => (pool.newRun time request).completed
    let (results, closing) := collect time (outcomes.map fun outcome => .result outcome.1)
    return (⟨results, opening, outcomes.map fun outcome => pool.seen outcome.2.2, closing⟩, pool)

end Pool

def Monitor.hearBatch (monitor : Monitor) (now : Nat) : List (List Event) → Monitor
  | [] => monitor
  | events :: rest =>
    (monitor.hearAll 0 Session.memory now events).hearBatch (now + events.length) rest

end DtdConformance.Run
