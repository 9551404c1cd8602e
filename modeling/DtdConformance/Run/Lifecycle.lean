import DtdConformance.Correlation
import DtdConformance.Run.Result
import DtdConformance.Settings.Basic
import DtdConformance.Text.LineEnding

/-! # The life of a run

A run checks one document against one text of declarations. It is idle until it is executed. Then
it is begun, passes through its stages one by one, and is finished at the end of the last stage or
of the first one that fails. A finished run keeps its ending. What a run does is a list of events.

Documents are read by a reader that the run is given. A reader may ask the run to execute before
it answers. The run refuses, since it is in progress.
-/
namespace DtdConformance.Run
set_option autoImplicit false

open Conformance Document

inductive Stage where
  | compile
  | parse
  | correlate
  | validate
  deriving Repr, DecidableEq

namespace Stage

def all : List Stage := [compile, parse, correlate, validate]

def name : Stage → String
  | compile => "compile"
  | parse => "parse"
  | correlate => "correlate"
  | validate => "validate"

end Stage

inductive Refusal where
  | inProgress
  deriving Repr, DecidableEq

def Refusal.message : Refusal → String
  | inProgress => "Validation run is already in progress"

inductive Answer where
  | root (root : Element (Option Nat))
  | noRoot
  | malformed (text : String)
  | broken (text : String)

inductive Reading where
  | answer (answer : Answer) (log : List Log.Entry)
  /-- The reader asks the run to execute and goes on with what it is told. -/
  | execute (resume : Except Refusal Result → Reading)

abbrev Reader : Type := List Char → Reading

inductive Event where
  | began (stage : Stage)
  | ended (stage : Stage)
  /-- The reader has been given the document. -/
  | asked
  /-- The run was asked to execute while it was in progress. -/
  | refused
  | logged (entry : Log.Entry)
  | recorded (result : Result) (isFailure : Bool)
  deriving Repr, DecidableEq

/-- The answer of a reader whose requests to execute are refused, and what happens until then. -/
def Reading.settle : Reading → Answer × List Event
  | .answer said log => (said, log.map .logged)
  | .execute resume =>
    let (said, events) := (resume (.error .inProgress)).settle
    (said, .refused :: events)

inductive Phase where
  | idle
  | begun
  | compiled (table : Dtd.Table)
  | read (table : Dtd.Table) (root : Element (Option Nat))
  /-- The elements have their lines. -/
  | placed (table : Dtd.Table) (root : Element (Option Nat))
  | finished (ending : Ending)
  deriving DecidableEq

inductive Status where
  | idle
  | validating
  | success
  | error
  deriving Repr, DecidableEq

namespace Status

def name : Status → String
  | idle => "IDLE"
  | validating => "VALIDATING"
  | success => "SUCCESS"
  | error => "ERROR"

def isTerminal : Status → Bool
  | success | error => true
  | idle | validating => false

end Status

end DtdConformance.Run

namespace DtdConformance

open Run

structure Run where
  declarations : List Char
  document : List Char
  settings : Settings
  reader : Reader
  time : String
  phase : Phase := .idle

namespace Run

open Conformance Document

def status (run : Run) : Status :=
  match run.phase with
  | .idle => .idle
  | .begun | .compiled _ | .read _ _ | .placed _ _ => .validating
  | .finished ending => if ending.isFailure then .error else .success

def result? (run : Run) : Option Result :=
  match run.phase with
  | .finished ending => some (ending.result run.time)
  | _ => none

def declarationText (run : Run) : List Char := Text.normalizeLineEndings run.declarations

def documentText (run : Run) : List Char :=
  Text.stripByteOrderMark (Text.normalizeLineEndings run.document)

def entry (level : Log.Level) (text : String) : Event := .logged ⟨.run, level, text⟩

/-- The run with its ending, which is recorded after the given events. -/
def finish (run : Run) (ending : Ending) (events : List Event) : Run × List Event :=
  ({ run with phase := .finished ending },
    events ++ [.recorded (ending.result run.time) ending.isFailure])

def during (stage : Stage) (events : List Event) : List Event :=
  .began stage :: events ++ [.ended stage]

def compileStage (run : Run) : Run × List Event :=
  let text := run.declarationText
  match Dtd.compile text (.ofText text) with
  | .ok found =>
    ({ run with phase := .compiled found.table }, during .compile (found.log.map .logged))
  | .error fault =>
    run.finish (.failed .noDefinitions)
      (during .compile [entry .info s!"DTD rejected: {fault.message}"])

def readStage (run : Run) (table : Dtd.Table) : Run × List Event :=
  let (answer, events) := (run.reader run.documentText).settle
  let events := during .parse (.asked :: events)
  match answer with
  | .root root => ({ run with phase := .read table root }, events)
  | .noRoot => run.finish (.failed .noRoot) events
  | .malformed text => run.finish (.failed (.malformed text)) events
  | .broken text =>
    run.finish (.failed (.internal text)) (events ++ [entry .error s!"Validation logic error: {text}"])

def placeStage (run : Run) (table : Dtd.Table) (root : Element (Option Nat)) : Run × List Event :=
  let text := run.documentText
  let index := Text.LineIndex.ofText text
  let tags := Markup.startTags text index
  let placed := Correlation.correlate tags root
  ({ run with phase := .placed table (Correlation.lines run.settings.useParserLines placed) },
    during .correlate ((Markup.report tags index :: Correlation.report placed).map .logged))

def checkStage (run : Run) (table : Dtd.Table) (root : Element (Option Nat)) : Run × List Event :=
  let found := findings table run.settings.textPreviewLength root
  let ending := Ending.checked found
  run.finish ending
    (during .validate [.logged (report found)] ++ [entry .info ending.summary])

/-- One step of the run. An idle run is begun, and a run that has been begun goes through a stage. A
finished run has none left. -/
def step (run : Run) : Run × List Event :=
  match run.phase with
  | .idle => ({ run with phase := .begun }, [])
  | .begun => run.compileStage
  | .compiled table => run.readStage table
  | .read table root => run.placeStage table root
  | .placed table root => run.checkStage table root
  | .finished _ => (run, [])

def steps : Nat → Run → Run × List Event
  | 0, run => (run, [])
  | n + 1, run =>
    let (run, events) := run.step
    let (run, later) := run.steps n
    (run, events ++ later)

def stepCount : Nat := Stage.all.length + 1

def Phase.progress : Phase → Nat
  | .idle => 0
  | .begun => 1
  | .compiled _ => 2
  | .read _ _ => 3
  | .placed _ _ => 4
  | .finished _ => 5

theorem progress_finish (run : Run) (ending : Ending) (events : List Event) :
    (run.finish ending events).1.phase.progress = 5 := rfl

theorem progress_compileStage (run : Run) : 2 ≤ run.compileStage.1.phase.progress := by
  unfold compileStage
  dsimp only
  split
  · exact Nat.le_refl 2
  · simp [progress_finish]

theorem progress_readStage (run : Run) (table : Dtd.Table) :
    3 ≤ (run.readStage table).1.phase.progress := by
  unfold readStage
  dsimp only
  split
  · exact Nat.le_refl 3
  all_goals simp [progress_finish]

theorem progress_lt_step (run : Run) (h : run.phase.progress < 5) :
    run.phase.progress < run.step.1.phase.progress := by
  unfold step
  split
  · next hPhase =>
    rw [hPhase]
    exact Nat.le_refl 1
  · next hPhase =>
    rw [hPhase]
    exact run.progress_compileStage
  · next table hPhase =>
    rw [hPhase]
    exact run.progress_readStage table
  · next table root hPhase =>
    rw [hPhase]
    exact Nat.le_refl 4
  · next table root hPhase =>
    rw [hPhase]
    exact Nat.le_refl 5
  · next hPhase => simp [hPhase, Phase.progress] at h

theorem step_eq_self (run : Run) (h : run.phase.progress = 5) : run.step = (run, []) := by
  unfold step
  split <;> simp_all [Phase.progress]

theorem progress_le (phase : Phase) : phase.progress ≤ 5 := by
  cases phase <;> simp [Phase.progress]

theorem progress_steps (n : Nat) (run : Run) (h : 5 ≤ run.phase.progress + n) :
    (run.steps n).1.phase.progress = 5 := by
  induction n generalizing run with
  | zero =>
    have := progress_le run.phase
    simp only [steps]
    omega
  | succ n ih =>
    simp only [steps]
    apply ih
    by_cases hLess : run.phase.progress < 5
    · have := progress_lt_step run hLess
      omega
    · have hEq : run.phase.progress = 5 := by
        have := progress_le run.phase
        omega
      simp only [step_eq_self run hEq]
      omega

theorem isSome_result?_steps (run : Run) :
    ((run.steps stepCount).1.result?).isSome = true := by
  have h : (run.steps stepCount).1.phase.progress = 5 :=
    progress_steps _ _ (by simp [stepCount, Stage.all])
  unfold result?
  split
  · rfl
  · next hNot =>
    cases hPhase : (run.steps stepCount).1.phase with
    | finished ending => exact absurd hPhase (hNot ending)
    | _ => simp [hPhase, Phase.progress] at h

/-- Executes a run. A finished run answers with the result it has, and a run in progress
refuses. -/
def execute (run : Run) : Except Refusal Result × Run × List Event :=
  if run.status = .validating then (.error .inProgress, run, [])
  else
    let after := run.steps stepCount
    (.ok (after.1.result?.get run.isSome_result?_steps), after.1, after.2)

end Run

end DtdConformance
