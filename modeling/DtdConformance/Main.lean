import DtdConformance.Cli.Command
import Std.Time.Format

/-! # The program

Gathers what the command finds around it, runs its batch with real clocks and prints the outcome.
-/
namespace DtdConformance.Cli
set_option autoImplicit false

open Run (Monitor Event)

def padded (width n : Nat) : String :=
  let digits := toString n
  "".pushn '0' (width - digits.length) ++ digits

/-- A quotient with the given number of places, rounded to the nearest. -/
def places (count numerator denominator : Nat) : String :=
  let scale := Nat.pow 10 count
  let n := (2 * numerator * scale + denominator) / (2 * denominator)
  s!"{n / scale}.{padded count (n % scale)}"

/-- Times are measured in microseconds and memory in bytes. -/
def measured : Monitor.Measure → String
  | .seconds time => places 3 time 1000000
  | .milliseconds time => places 2 time 1000
  | .megabytes memory => places 1 memory (1024 * 1024)

def now : IO Nat := do return (← IO.monoNanosNow) / 1000

def memory : IO Nat := do
  try
    let fields := (← IO.FS.readFile "/proc/self/statm").splitOn " "
    return ((fields[1]?.bind String.toNat?).getD 0) * 4096
  catch _ => return 0

/-- The day and the time of day, with the given texts between them and before the fraction of a
second, which has the given number of digits. -/
def clock (between point : String) (digits : Nat) : IO String := do
  let t ← Std.Time.PlainDateTime.now
  let date := s!"{padded 4 t.date.year.toInt.toNat}-{padded 2 t.date.month.val.toNat}-" ++
    padded 2 t.date.day.val.toNat
  let time := s!"{padded 2 t.time.hour.val.toNat}:{padded 2 t.time.minute.val.toNat}:" ++
    padded 2 t.time.second.val.toNat
  let fraction := padded digits (t.time.nanosecond.val.toNat / Nat.pow 10 (9 - digits))
  return date ++ between ++ time ++ point ++ fraction

def readEntry (path : Files.Path) : IO Files.Entry := do
  try
    return .file (← IO.FS.readBinFile path.shown).toList
  catch
    | .noFileOrDirectory .. => return .absent
    | .inappropriateType _ code _ => return if code = 20 then .belowFile else .directory
    | _ => return .directory

/-- The files that a command with the given words may read. -/
def pathsOf (words : List String) : List Files.Path :=
  match Options.ofWords words with
  | .error _ => []
  | .ok options =>
    (options.settings.toList ++ options.declarations :: options.documents).map .ofText

def environment : IO Settings.Environment := do
  let found ← Settings.Field.all.mapM fun field => do
    return (← IO.getEnv field.environmentVariable).map fun text => (field.environmentVariable, text)
  return found.filterMap id

def world (words : List String) : IO World := do
  let entries ← (pathsOf words).mapM fun path => do return (path, ← readEntry path)
  return {
    environment := ← environment
    snapshot := fun path => (entries.lookup path).getD .absent
    showsLog := true
    logTime := ← clock " " "," 3
    resultTime := ← clock "T" "." 6 }

def timed (run : Run) (monitor : Monitor) : IO (Run × List Event × Monitor) := do
  let mut state := (run, ([] : List Event), monitor)
  for _ in List.range Run.stepCount do
    let (run, heard, monitor) := state
    let before ← now
    let (run, events) ← IO.lazyPure fun _ => run.step
    let after ← now
    let size ← memory
    let monitor := events.foldl (fun (monitor : Monitor) event =>
      match event with
      | .began _ => monitor.hear 0 before size event
      | _ => monitor.hear 0 after size event) monitor
    state := (run, heard ++ events, monitor)
  return state

def execute (world : World) (plan : Plan) : IO Outcome := do
  let crashed (crash : Crash) : Outcome := ⟨.crash crash, "", ""⟩
  match plan.pool with
  | .error crash => return crashed crash
  | .ok (pool, making) =>
    match pool.openBatch plan.requests.length with
    | .error fault => return crashed (.pool fault)
    | .ok (pool, opening) =>
      let start ← now
      let mut monitor : Monitor := { startedAt := start }
      let mut results := []
      let mut log := making ++ opening
      for request in plan.requests do
        let (run, events, heard) ← timed (pool.newRun world.resultTime request) monitor
        if pool.isMonitored then monitor := heard
        results := results ++ run.result?.toList
        log := log ++ Run.Pool.entries (pool.seen events)
      let finish ← now
      let report := if plan.withStats then some (monitor.report finish measured) else none
      return plan.conclude world log results report

def Crash.message : Crash → String
  | settings _ => "the keys of a settings file must be texts"
  | pool fault => fault.message

end DtdConformance.Cli

open DtdConformance Cli in
def main (words : List String) : IO UInt32 := do
  let world ← world words
  let outcome ← match plan world words with
    | .error outcome => pure outcome
    | .ok plan => execute world plan
  IO.print outcome.out
  IO.eprint outcome.err
  match outcome.exit with
  | .code n => return n.toUInt32
  | .crash crash =>
    IO.eprintln crash.message
    return 1
