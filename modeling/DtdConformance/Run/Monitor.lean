import DtdConformance.Run.Lifecycle

/-! # Counting runs and timing stages

A monitor listens to runs. It counts how they end, adds up the time that their stages take and
keeps the largest amount of memory seen at the end of a stage. Stages are timed for each worker by
itself, so runs on several workers do not disturb one another. Instants and amounts of memory are
told to the monitor from outside.
-/
namespace DtdConformance.Run
set_option autoImplicit false

structure Counters where
  completed : Nat := 0
  valid : Nat := 0
  invalid : Nat := 0
  errored : Nat := 0
  diagnostics : Nat := 0
  deriving Repr, DecidableEq

/-- Counts one result. The error of a failure is no diagnostic. -/
def Counters.add (counters : Counters) (result : Result) (isFailure : Bool) : Counters :=
  let counters := { counters with completed := counters.completed + 1 }
  if isFailure then { counters with errored := counters.errored + 1 }
  else if result.isValid then { counters with valid := counters.valid + 1 }
  else { counters with
    invalid := counters.invalid + 1
    diagnostics := counters.diagnostics + result.errorCount }

structure Timer where
  worker : Nat
  stage : String
  since : Nat
  deriving Repr, DecidableEq

structure Total where
  stage : String
  time : Nat
  deriving Repr, DecidableEq

structure Monitor where
  startedAt : Nat
  counters : Counters := {}
  totals : List Total := Stage.all.map fun stage => ⟨stage.name, 0⟩
  timers : List Timer := []
  peakMemory : Nat := 0
  deriving Repr, DecidableEq

namespace Monitor

def timer? (monitor : Monitor) (worker : Nat) (stage : String) : Option Timer :=
  monitor.timers.find? fun timer => timer.worker = worker ∧ timer.stage = stage

def dropTimer (timers : List Timer) (worker : Nat) (stage : String) : List Timer :=
  timers.filter fun timer => ¬(timer.worker = worker ∧ timer.stage = stage)

/-- A worker begins a stage. Beginning it again starts its time anew. -/
def start (monitor : Monitor) (worker now : Nat) (stage : String) : Monitor :=
  { monitor with timers := ⟨worker, stage, now⟩ :: dropTimer monitor.timers worker stage }

def addTime (totals : List Total) (stage : String) (time : Nat) : List Total :=
  if totals.any (fun total => total.stage = stage) then
    totals.map fun total =>
      if total.stage = stage then { total with time := total.time + time } else total
  else totals ++ [⟨stage, time⟩]

/-- A worker ends a stage. The time that it took is told, or none if the worker was not in it. -/
def stop (monitor : Monitor) (worker now memory : Nat) (stage : String) : Option Nat × Monitor :=
  match monitor.timer? worker stage with
  | none => (none, monitor)
  | some timer =>
    let time := now - timer.since
    (some time, { monitor with
      timers := dropTimer monitor.timers worker stage
      totals := addTime monitor.totals stage time
      peakMemory := max monitor.peakMemory memory })

def record (monitor : Monitor) (result : Result) (isFailure : Bool) : Monitor :=
  { monitor with counters := monitor.counters.add result isFailure }

def hear (worker now memory : Nat) (monitor : Monitor) : Event → Monitor
  | .began stage => monitor.start worker now stage.name
  | .ended stage => (monitor.stop worker now memory stage.name).2
  | .recorded result isFailure => monitor.record result isFailure
  | .asked | .refused | .logged _ => monitor

def hearAll (worker memory : Nat) (monitor : Monitor) (now : Nat) : List Event → Monitor
  | [] => monitor
  | event :: events =>
    (monitor.hear worker now memory event).hearAll worker memory (now + 1) events

/-- A quantity in a report: times in seconds or milliseconds, and memory in megabytes. -/
inductive Measure where
  | seconds (time : Nat)
  | milliseconds (time : Nat)
  | megabytes (memory : Nat)
  deriving Repr, DecidableEq

def report (monitor : Monitor) (now : Nat) (shown : Measure → String) : String :=
  let counters := monitor.counters
  "\n".intercalate <|
    ["Performance Summary",
      s!"  Runs: {counters.completed} (valid {counters.valid}, invalid {counters.invalid}, " ++
        s!"errored {counters.errored})",
      s!"  Diagnostics: {counters.diagnostics}",
      s!"  Elapsed: {shown (.seconds (now - monitor.startedAt))}s",
      "  Stage timings:"] ++
    (monitor.totals.map fun total =>
      s!"    {total.stage}: {shown (.milliseconds total.time)}ms") ++
    [s!"  Peak memory: {shown (.megabytes monitor.peakMemory)} MB"]

end Monitor

end DtdConformance.Run
