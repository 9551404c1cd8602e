import DtdConformance.Proofs.Run.History
import DtdConformance.Run.Monitor

/-! # What a run tells its monitor

A run calls its monitor at the beginning and at the end of each stage, and once more to record its
result. The monitor hears the calls in their order, but not at once: meanwhile other runs may be at
work, and the run may be asked to execute again. A stage may also break off with a fault that
nothing foresees. Even then the stage is closed before the result is recorded.
-/
namespace DtdConformance.Run
set_option autoImplicit false

open Conformance Document

/-! ## Calls -/

def Event.isCall : Event → Bool
  | .began _ | .ended _ | .recorded _ _ => true
  | .asked | .refused | .logged _ => false

/-- The events that a monitor is called for. -/
def calls (events : List Event) : List Event := events.filter Event.isCall

/-- The calls for some stages: each stage ends before the next one begins. -/
def script (stages : List Stage) : List Event :=
  stages.flatMap fun stage => [.began stage, .ended stage]

theorem calls_append (left right : List Event) :
    calls (left ++ right) = calls left ++ calls right :=
  List.filter_append left right

theorem script_append (left right : List Stage) :
    script (left ++ right) = script left ++ script right :=
  List.flatMap_append

theorem calls_logged (log : List Log.Entry) : calls (log.map Event.logged) = [] := by
  rw [calls, List.filter_eq_nil_iff]
  simp [Event.isCall]

theorem calls_settle (reading : Reading) : calls reading.settle.2 = [] := by
  induction reading with
  | answer said log => exact calls_logged log
  | execute resume ih => exact ih _

theorem calls_during {events : List Event} (h : calls events = []) (stage : Stage) :
    calls (during stage events) = script [stage] := by
  have hOpening : calls (.began stage :: events) = [.began stage] := by
    rw [calls, List.filter_cons_of_pos rfl, ← calls, h]
  rw [during, calls_append, hOpening]
  rfl

theorem calls_entry (level : Log.Level) (text : String) : calls [entry level text] = [] := rfl

/-! ## Steps and faults -/

/-- The stages that a run in some phase has passed through. The phase of a finished run does not
tell them. -/
def Phase.passed? : Phase → Option (List Stage)
  | .idle | .begun => some []
  | .compiled _ => some [.compile]
  | .read _ _ => some [.compile, .parse]
  | .placed _ _ => some [.compile, .parse, .correlate]
  | .finished _ => none

/-- The run ends with a fault that nothing foresees, after the given events. -/
def breakOff (run : Run) (events : List Event) (text : String) : Run × List Event :=
  run.finish (.failed (.internal text))
    (events ++ [entry .error s!"Validation logic error: {text}"])

/-- What happens in a run until a fault breaks it off: the fault lies within the next stage or
between two of them. -/
inductive Breaks (run : Run) : List Event → Prop
  | between {stages : List Stage} (hPassed : run.phase.passed? = some stages) : Breaks run []
  | within {stages : List Stage} {stage : Stage} {events : List Event}
      (hPassed : run.phase.passed? = some stages) (hNext : stages ++ [stage] <+: Stage.all)
      (hQuiet : calls events = []) : Breaks run (during stage events)

/-- The fault of a reader is one of these. -/
theorem readStage_of_broken {run : Run} {table : Dtd.Table} {text : String}
    (h : run.answer = .broken text) : run.readStage table =
      run.breakOff (during .parse (.asked :: (run.reader run.documentText).settle.2)) text := by
  rw [answer] at h
  unfold readStage
  dsimp only
  rw [h]
  rfl

/-- What becomes of a run, as far as its monitor is concerned. Some more stages are passed, which
are none or one, and then the run may be finished. -/
inductive Advances (run : Run) : Run × List Event → Prop
  | pass {stages more : List Stage} {phase : Phase} {events : List Event}
      (hBefore : run.phase.passed? = some stages) (hAfter : phase.passed? = some (stages ++ more))
      (hCalls : calls events = script more) : Advances run ({ run with phase }, events)
  | finish {stages more : List Stage} {ending : Ending} {events : List Event}
      (hBefore : run.phase.passed? = some stages) (hStages : stages ++ more <+: Stage.all)
      (hCalls : calls events = script more) : Advances run (run.finish ending events)
  | rest {ending : Ending} (hPhase : run.phase = .finished ending) : Advances run (run, [])

theorem advances_compileStage {run : Run} (h : run.phase = .begun) :
    run.Advances run.compileStage := by
  have hPassed : run.phase.passed? = some [] := by rw [h]; rfl
  unfold compileStage
  dsimp only
  split
  · next found _ => exact .pass hPassed rfl (calls_during (calls_logged found.log) .compile)
  · next fault _ =>
    exact .finish hPassed (by decide) (calls_during (calls_entry _ _) .compile)

theorem advances_readStage {run : Run} {table : Dtd.Table} (h : run.phase = .compiled table) :
    run.Advances (run.readStage table) := by
  have hPassed : run.phase.passed? = some [.compile] := by rw [h]; rfl
  have hQuiet : calls (.asked :: (run.reader run.documentText).settle.2) = [] :=
    calls_settle (run.reader run.documentText)
  have hCalls := calls_during hQuiet .parse
  unfold readStage
  dsimp only
  split
  · exact .pass hPassed rfl hCalls
  · exact .finish hPassed (by decide) hCalls
  · exact .finish hPassed (by decide) hCalls
  · next text _ =>
    have hLogged : calls (during .parse (.asked :: (run.reader run.documentText).settle.2) ++
        [entry .error s!"Validation logic error: {text}"]) = script [.parse] := by
      rw [calls_append, hCalls, calls_entry, List.append_nil]
    exact .finish hPassed (by decide) hLogged

theorem advances_placeStage {run : Run} {table : Dtd.Table} {root : Element (Option Nat)}
    (h : run.phase = .read table root) : run.Advances (run.placeStage table root) := by
  have hPassed : run.phase.passed? = some [.compile, .parse] := by rw [h]; rfl
  exact .pass hPassed rfl (calls_during (calls_logged _) .correlate)

theorem advances_checkStage {run : Run} {table : Dtd.Table} {root : Element (Option Nat)}
    (h : run.phase = .placed table root) : run.Advances (run.checkStage table root) := by
  have hPassed : run.phase.passed? = some [.compile, .parse, .correlate] := by rw [h]; rfl
  let found := findings table run.settings.textPreviewLength root
  have hQuiet : calls [.logged (report found)] = [] := rfl
  have hCalls : calls (during .validate [.logged (report found)] ++
      [entry .info (Ending.checked found).summary]) = script [.validate] := by
    rw [calls_append, calls_during hQuiet, calls_entry, List.append_nil]
  exact .finish hPassed (by decide) hCalls

theorem advances_step (run : Run) : run.Advances run.step := by
  cases hPhase : run.phase with
  | idle =>
    have hStep : run.step = ({ run with phase := .begun }, []) := by rw [step, hPhase]
    have hPassed : run.phase.passed? = some [] := by rw [hPhase]; rfl
    rw [hStep]
    exact .pass hPassed rfl rfl
  | begun =>
    have hStep : run.step = run.compileStage := by rw [step, hPhase]
    rw [hStep]
    exact advances_compileStage hPhase
  | compiled table =>
    have hStep : run.step = run.readStage table := by rw [step, hPhase]
    rw [hStep]
    exact advances_readStage hPhase
  | read table root =>
    have hStep : run.step = run.placeStage table root := by rw [step, hPhase]
    rw [hStep]
    exact advances_placeStage hPhase
  | placed table root =>
    have hStep : run.step = run.checkStage table root := by rw [step, hPhase]
    rw [hStep]
    exact advances_checkStage hPhase
  | finished ending =>
    rw [run.step_eq_self (by rw [hPhase]; rfl)]
    exact .rest hPhase

theorem prefix_of_passed? {phase : Phase} {stages : List Stage}
    (h : phase.passed? = some stages) : stages <+: Stage.all := by
  cases phase <;> cases h <;> decide

theorem advances_breakOff {run : Run} {events : List Event} (h : run.Breaks events)
    (text : String) : run.Advances (run.breakOff events text) := by
  cases h with
  | @between stages hPassed =>
    have hStages : stages ++ [] <+: Stage.all := by
      rw [List.append_nil]
      exact prefix_of_passed? hPassed
    exact .finish hPassed hStages rfl
  | within hPassed hNext hQuiet =>
    refine .finish hPassed hNext ?_
    rw [calls_append, calls_during hQuiet, calls_entry, List.append_nil]

/-! ## All calls of a run -/

/-- The events of a run call for the stages that it has passed through, and if it is finished for
its result at last. -/
inductive Accounted (run : Run) (events : List Event) : Prop
  | going {stages : List Stage} (hPassed : run.phase.passed? = some stages)
      (hCalls : calls events = script stages)
  | done {stages : List Stage} {ending : Ending} (hPhase : run.phase = .finished ending)
      (hStages : stages <+: Stage.all)
      (hCalls : calls events =
        script stages ++ [.recorded (ending.result run.time) ending.isFailure])

namespace Accounted

variable {run : Run} {events : List Event}

theorem advance {after : Run × List Event} (h : run.Accounted events)
    (hAfter : run.Advances after) : after.1.Accounted (events ++ after.2) := by
  cases hAfter with
  | rest hPhase =>
    rw [List.append_nil]
    exact h
  | @pass stages more phase later hBefore hAfter hMore =>
    cases h with
    | going hPassed hCalls =>
      obtain rfl := Option.some.inj (hBefore.symm.trans hPassed)
      refine .going hAfter ?_
      rw [calls_append, hCalls, hMore, script_append]
    | done hPhase _ _ =>
      rw [hPhase] at hBefore
      cases hBefore
  | @finish stages more ending later hBefore hStages hMore =>
    cases h with
    | going hPassed hCalls =>
      obtain rfl := Option.some.inj (hBefore.symm.trans hPassed)
      have hPhase : (run.finish ending later).1.phase = .finished ending := rfl
      refine .done hPhase hStages ?_
      rw [finish, calls_append, calls_append, hCalls, hMore, script_append, List.append_assoc]
      rfl
    | done hPhase _ _ =>
      rw [hPhase] at hBefore
      cases hBefore

theorem steps (h : run.Accounted events) (n : Nat) :
    (run.steps n).1.Accounted (events ++ (run.steps n).2) := by
  induction n generalizing run events with
  | zero =>
    rw [Run.steps, List.append_nil]
    exact h
  | succ n ih =>
    have hLater := ih (h.advance run.advances_step)
    rw [List.append_assoc] at hLater
    exact hLater

/-- Being asked to execute, in whatever state the run is, is no exception. -/
theorem execute (h : run.Accounted events) :
    run.execute.2.1.Accounted (events ++ run.execute.2.2) := by
  by_cases hStatus : run.status = .validating
  · rw [execute_of_validating hStatus, List.append_nil]
    exact h
  · rw [execute_snd hStatus]
    exact h.steps stepCount

end Accounted

/-! ## Stations -/

/-- A run with what its monitor has heard of it, and what it has done but the monitor has not heard
yet. -/
structure Station where
  run : DtdConformance.Run
  told : List Event := []
  unheard : List Event := []

namespace Station

/-- One move at a station, and the event that the monitor hears in it. The run goes on when
everything has been heard, and it may be asked to execute at any time. -/
inductive Moves : Station → Option Event → Station → Prop
  | step (run : DtdConformance.Run) (told : List Event) :
      Moves ⟨run, told, []⟩ none ⟨run.step.1, told, run.step.2⟩
  | breakOff {run : DtdConformance.Run} {events : List Event} (h : run.Breaks events)
      (text : String) (told : List Event) :
      Moves ⟨run, told, []⟩ none
        ⟨(run.breakOff events text).1, told, (run.breakOff events text).2⟩
  | execute (run : DtdConformance.Run) (told unheard : List Event) :
      Moves ⟨run, told, unheard⟩ none ⟨run.execute.2.1, told, unheard ++ run.execute.2.2⟩
  | tell (run : DtdConformance.Run) (told : List Event) (event : Event) (unheard : List Event) :
      Moves ⟨run, told, event :: unheard⟩ (some event) ⟨run, told ++ [event], unheard⟩

/-- Nothing is left to be done or heard of a request to execute. -/
def IsSettled (station : Station) : Prop :=
  station.unheard = [] ∧ station.run.status ≠ .validating

def Accounted (station : Station) : Prop :=
  station.run.Accounted (station.told ++ station.unheard)

variable {station later : Station}

theorem Accounted.move (h : station.Accounted) {heard : Option Event}
    (hMoves : station.Moves heard later) : later.Accounted := by
  unfold Accounted at h ⊢
  cases hMoves with
  | step run told =>
    rw [List.append_nil] at h
    exact h.advance run.advances_step
  | breakOff hBreaks text told =>
    rw [List.append_nil] at h
    exact h.advance (advances_breakOff hBreaks text)
  | execute run told unheard =>
    rw [← List.append_assoc]
    exact Run.Accounted.execute h
  | tell run told event unheard =>
    rw [List.append_assoc, List.singleton_append]
    exact h

/-- What the monitor hears is what it is told. -/
theorem Moves.told_eq {heard : Option Event} (h : station.Moves heard later) :
    later.told = station.told ++ heard.toList := by
  cases h with
  | tell => rfl
  | _ => exact (List.append_nil _).symm

/-- The calls of a run that the monitor has heard: stages that were closed one after another, the
last one possibly without its end so far, or all stages of the run and its result. -/
structure Orderly (station : Station) : Prop where
  heard : ∃ stages, stages <+: Stage.all ∧ (calls station.told <+: script stages ∨
    ∃ result, station.run.result? = some result ∧ calls station.told =
      script stages ++ [.recorded result (station.run.status = .error)])
  settled : station.IsSettled → station.run.status ≠ .idle → ∃ stages result,
    stages <+: Stage.all ∧ station.run.result? = some result ∧ calls station.told =
      script stages ++ [.recorded result (station.run.status = .error)]
  untouched : station.run.status = .idle → calls station.told = []

theorem isFailure_eq {run : DtdConformance.Run} {ending : Ending}
    (h : run.phase = .finished ending) : ending.isFailure = decide (run.status = .error) := by
  rw [status_of_finished h]
  cases ending.isFailure <;> rfl

theorem Accounted.orderly (h : station.Accounted) : station.Orderly := by
  cases h with
  | @going stages hPassed hCalls =>
    rw [calls_append] at hCalls
    have hHeard : calls station.told <+: script stages := ⟨_, hCalls⟩
    refine ⟨⟨stages, prefix_of_passed? hPassed, Or.inl hHeard⟩, ?_, ?_⟩
    · -- A run that has been begun and is not finished is in progress.
      rintro ⟨_, hStatus⟩ hIdle
      rw [status] at hStatus hIdle
      cases hPhase : station.run.phase <;> simp [hPhase, Phase.passed?] at *
    · intro hIdle
      rw [status] at hIdle
      cases hPhase : station.run.phase with
      | idle =>
        rw [hPhase] at hPassed
        cases hPassed
        exact List.prefix_nil.mp hHeard
      | finished ending =>
        rw [hPhase] at hPassed
        cases hPassed
      | _ => simp [hPhase] at hIdle
  | @done stages ending hPhase hStages hCalls =>
    have hResult : station.run.result? = some (ending.result station.run.time) := by
      rw [result?, hPhase]
    rw [isFailure_eq hPhase, calls_append] at hCalls
    refine ⟨?_, ?_, ?_⟩
    · have hHeard : calls station.told <+: script stages ++
          [.recorded (ending.result station.run.time) (station.run.status = .error)] := ⟨_, hCalls⟩
      rcases List.prefix_concat_iff.mp hHeard with hAll | hSome
      · exact ⟨stages, hStages, Or.inr ⟨_, hResult, hAll⟩⟩
      · exact ⟨stages, hStages, Or.inl hSome⟩
    · rintro ⟨hUnheard, _⟩ _
      rw [hUnheard] at hCalls
      exact ⟨stages, _, hStages, hResult, (List.append_nil _).symm.trans hCalls⟩
    · intro hIdle
      rw [status_of_finished hPhase] at hIdle
      split at hIdle <;> cases hIdle

end Station

end DtdConformance.Run
