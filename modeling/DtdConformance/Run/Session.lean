import DtdConformance.Run.Monitor
import DtdConformance.Xml.Reader

/-! # Sessions

A session makes runs under the same settings, keeps them under names, and has one monitor listen
to all of them. Its time advances by one with every event.
-/
namespace DtdConformance.Run
set_option autoImplicit false

def standardReader (huge : Bool) : Reader := fun cs =>
  match Xml.read huge cs with
  | .ok (some root) => .answer (.root (root.map some)) []
  | .ok none =>
    .answer .noRoot [⟨.documentReader, .debug, "XML content is empty, no root element"⟩]
  | .error rejection =>
    let text := rejection.fault.message
    .answer (.malformed text) [⟨.documentReader, .info, s!"XML is not well-formed: {text}"⟩]

def ofTexts (settings : Settings) (time : String) (declarations document : List Char) :
    DtdConformance.Run :=
  { declarations, document, settings, reader := standardReader settings.hugeTree, time }

/-- The events of a run that may still happen, and its result. -/
def completed (run : DtdConformance.Run) : Result × DtdConformance.Run × List Event :=
  let after := run.steps stepCount
  (after.1.result?.get run.isSome_result?_steps, after.1, after.2)

def check (settings : Settings) (time : String) (declarations document : List Char) : Result :=
  (ofTexts settings time declarations document).completed.1

structure Session where
  settings : Settings
  time : String
  monitor : Monitor := { startedAt := 0 }
  now : Nat := 0
  runs : List (String × DtdConformance.Run) := []

namespace Session

def memory : Nat := 1

def hear (session : Session) (events : List Event) : Session :=
  { session with
    monitor := session.monitor.hearAll 0 memory session.now events
    now := session.now + events.length }

def newRun (session : Session) (declarations document : List Char) : DtdConformance.Run :=
  ofTexts session.settings session.time declarations document

def check (session : Session) (declarations document : List Char) : Result × Session :=
  let (result, _, events) := (session.newRun declarations document).completed
  (result, session.hear events)

def keep (session : Session) (name : String) (run : DtdConformance.Run) : Session :=
  { session with runs := (name, run) :: session.runs.filter fun other => other.1 ≠ name }

def create (session : Session) (name : String) (declarations document : List Char) : Session :=
  session.keep name (session.newRun declarations document)

def execute? (session : Session) (name : String) :
    Option (Except Refusal Result × Status × Session) :=
  (session.runs.lookup name).map fun run =>
    let (outcome, run, events) := run.execute
    (outcome, run.status, (session.keep name run).hear events)

def record (session : Session) (result : Result) (isFailure : Bool) : Session :=
  { session with monitor := session.monitor.record result isFailure, now := session.now + 1 }

def start (session : Session) (stage : String) : Session :=
  { session with
    monitor := session.monitor.start 0 session.now stage
    now := session.now + 1 }

/-- Ends a stage and notes an amount of memory, which is none when it cannot be measured. -/
def stop (session : Session) (memory : Nat) (stage : String) : Option Nat × Session :=
  let (time, monitor) := session.monitor.stop 0 session.now memory stage
  (time, { session with monitor, now := session.now + 1 })

def report (session : Session) (shown : Monitor.Measure → String) : String :=
  session.monitor.report session.now shown

end Session

end DtdConformance.Run
