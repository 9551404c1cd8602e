import DtdConformance.Proofs.Run.Outcome

/-! # The history of a run

Whatever happens to a run, it moves forward from idle to its end and stays there. It may be asked to
execute at any time, also by its own reader. While it is in progress it refuses, and the refusal
changes nothing. At any other time it answers with its one result. The reader is given the document
at most once, and never when nothing is declared.
-/
namespace DtdConformance

namespace Run
set_option autoImplicit false

open Document

inductive Status.Moves : Status → Status → Prop
  | begin : Moves .idle .validating
  | succeed : Moves .validating .success
  | fail : Moves .validating .error

/-- A reader whose requests to execute go to the run itself: what it says in the end, what becomes
of the run meanwhile and what the run does. -/
def Reading.converse (run : Run) : Reading → Answer × Run × List Event
  | .answer said _ => (said, run, [])
  | .execute resume =>
    let (outcome, run, events) := run.execute
    let (said, run, later) := (resume outcome).converse run
    (said, run, events ++ later)

/-- What a run may become, with all that happens on the way. It takes its steps, and between any two
of them it may be asked to execute. -/
inductive Reaches (start : Run) : Run → List Event → Prop
  | refl : Reaches start start []
  | step {run : Run} {events : List Event} (h : Reaches start run events) :
      Reaches start run.step.1 (events ++ run.step.2)
  | execute {run : Run} {events : List Event} (h : Reaches start run events) :
      Reaches start run.execute.2.1 (events ++ run.execute.2.2)

/-- The reason for a failure. -/
def Fails (run : Run) : Failure → Prop
  | .noDefinitions => ¬ Dtd.HasDeclaration (Markup.maskComments run.declarationText)
  | .malformed text => run.answer = .malformed text
  | .noRoot => run.answer = .noRoot
  | .internal text => run.answer = .broken text

/-! ## The status -/

theorem moves_step (run : Run) :
    run.step.1.status = run.status ∨ Status.Moves run.status run.step.1.status := by
  cases hPhase : run.phase with
  | idle =>
    rw [step_idle hPhase, status, status, hPhase]
    exact Or.inr .begin
  | begun =>
    rw [step_begun hPhase, status, status, hPhase]
    cases Dtd.compile run.declarationText (.ofText run.declarationText) with
    | error fault => exact Or.inr .fail
    | ok found => exact Or.inl rfl
  | compiled table =>
    rw [step_compiled hPhase, status, status, hPhase]
    cases run.answer with
    | root root => exact Or.inl rfl
    | noRoot | malformed text | broken text => exact Or.inr .fail
  | read table root =>
    rw [step_read hPhase, status, status, hPhase]
    exact Or.inl rfl
  | placed table root =>
    rw [step_placed hPhase, status, status, hPhase]
    exact Or.inr .succeed
  | finished ending =>
    rw [run.step_eq_self (by rw [hPhase]; rfl)]
    exact Or.inl rfl

theorem status_of_finished {run : Run} {ending : Ending} (h : run.phase = .finished ending) :
    run.status = if ending.isFailure then .error else .success := by
  rw [status, h]

theorem result?_eq_none_iff (run : Run) :
    run.result? = none ↔ run.status = .idle ∨ run.status = .validating := by
  unfold result? status
  cases run.phase with
  | finished ending => cases ending <;> simp [Ending.isFailure]
  | _ => simp

theorem exists_ending_of_isTerminal {run : Run} (h : run.status.isTerminal = true) :
    ∃ ending, run.phase = .finished ending := by
  unfold status at h
  cases hPhase : run.phase with
  | finished ending => exact ⟨ending, rfl⟩
  | _ => simp [hPhase, Status.isTerminal] at h

/-! ## Requests to execute -/

theorem execute_of_validating {run : Run} (h : run.status = .validating) :
    run.execute = (.error .inProgress, run, []) := if_pos h

theorem execute_snd {run : Run} (h : run.status ≠ .validating) :
    run.execute.2 = run.steps stepCount := by
  rw [execute, if_neg h]

/-- The readers that the stages know get the very answers that the run in progress gives. -/
theorem converse_of_validating {run : Run} (h : run.status = .validating) (reading : Reading) :
    reading.converse run = (reading.settle.1, run, []) := by
  induction reading with
  | answer said log => rfl
  | execute resume ih =>
    simp only [Reading.converse, execute_of_validating h, ih, List.append_nil]
    rfl

theorem execute_of_finished {run : Run} {ending : Ending} (h : run.phase = .finished ending) :
    run.execute = (.ok (ending.result run.time), run, []) := by
  have hStatus : run.status ≠ .validating := by
    rw [status_of_finished h]
    split <;> exact Status.noConfusion
  rw [execute, if_neg hStatus]
  simp [steps_finished h, result?, h]

/-- A run that is not in progress answers, and has come to its end with the answer. -/
theorem exists_execute_eq_ok {run : Run} (h : run.status ≠ .validating) :
    ∃ result, run.execute.1 = .ok result ∧ run.execute.2.1.result? = some result ∧
      run.execute.2.1.status.isTerminal = true := by
  have hIsSome := run.isSome_result?_steps
  refine ⟨(run.steps stepCount).1.result?.get hIsSome, ?_, ?_, ?_⟩
  · rw [execute, if_neg h]
  · rw [execute_snd h, Option.some_get]
  · rw [execute_snd h]
    cases hStatus : (run.steps stepCount).1.status with
    | success | error => rfl
    | idle | validating => simp [(result?_eq_none_iff _).mpr, hStatus] at hIsSome

/-! ## Steps are all that happens -/

theorem steps_add (m n : Nat) (run : Run) :
    run.steps (m + n) = (((run.steps m).1.steps n).1,
      (run.steps m).2 ++ ((run.steps m).1.steps n).2) := by
  induction m generalizing run with
  | zero => rw [Nat.zero_add]; rfl
  | succ m ih =>
    rw [Nat.succ_add, steps, steps]
    simp only [ih, List.append_assoc]

/-- A request to execute is either refused or a number of steps. -/
theorem exists_steps_of_reaches {start run : Run} {events : List Event}
    (h : Reaches start run events) : ∃ n, start.steps n = (run, events) := by
  induction h with
  | refl => exact ⟨0, rfl⟩
  | @step run events _ ih =>
    obtain ⟨n, hn⟩ := ih
    refine ⟨n + 1, ?_⟩
    rw [steps_add, hn]
    simp [steps]
  | @execute run events _ ih =>
    obtain ⟨n, hn⟩ := ih
    by_cases hStatus : run.status = .validating
    · exact ⟨n, by rw [execute_of_validating hStatus, List.append_nil, hn]⟩
    · exact ⟨n + stepCount, by rw [steps_add, hn, execute_snd hStatus]⟩

theorem eq_of_finished_of_reaches {run later : Run} {more : List Event} {ending : Ending}
    (hPhase : run.phase = .finished ending) (h : Reaches run later more) :
    later = run ∧ more = [] := by
  obtain ⟨n, hn⟩ := exists_steps_of_reaches h
  rw [steps_finished hPhase] at hn
  cases hn
  exact ⟨rfl, rfl⟩

/-- From wherever an idle run has come, all its steps take it to the same end. -/
theorem steps_of_steps {start run : Run} {events : List Event} {n : Nat}
    (hIdle : start.phase = .idle) (h : start.steps n = (run, events)) :
    (run.steps stepCount).1 = { start with phase := .finished start.ending } := by
  calc (run.steps stepCount).1
    _ = (start.steps (n + stepCount)).1 := by rw [steps_add, h]
    _ = (start.steps (stepCount + n)).1 := by rw [Nat.add_comm]
    _ = { start with phase := .finished start.ending } := by
      rw [steps_add, steps_idle hIdle, steps_finished rfl]

theorem eq_ending_of_reaches {start run : Run} {events : List Event} {ending : Ending}
    (hIdle : start.phase = .idle) (h : Reaches start run events)
    (hPhase : run.phase = .finished ending) :
    run = { start with phase := .finished start.ending } := by
  obtain ⟨n, hn⟩ := exists_steps_of_reaches h
  rw [← steps_of_steps hIdle hn, steps_finished hPhase]

/-! ## How often the reader is asked -/

def Phase.asked : Phase → Nat
  | .idle | .begun | .compiled _ => 0
  | .read _ _ | .placed _ _ => 1
  | .finished ending => if ending = .failed .noDefinitions then 0 else 1

theorem Phase.asked_le (phase : Phase) : phase.asked ≤ 1 := by
  unfold asked
  split
  · exact Nat.zero_le 1
  · exact Nat.zero_le 1
  · exact Nat.zero_le 1
  · exact Nat.le_refl 1
  · exact Nat.le_refl 1
  · split <;> decide

theorem count_asked_logged (log : List Log.Entry) : (log.map Event.logged).count .asked = 0 := by
  rw [List.count_eq_zero]
  simp

theorem count_asked_settle (reading : Reading) : reading.settle.2.count .asked = 0 := by
  induction reading with
  | answer said log => exact count_asked_logged log
  | execute resume ih =>
    rw [Reading.settle, List.count_cons_of_ne (by simp)]
    exact ih _

/-- A step asks the reader as often as the phases before and after it tell. -/
theorem asked_step (run : Run) :
    run.step.1.phase.asked = run.phase.asked + run.step.2.count .asked := by
  cases hPhase : run.phase with
  | finished ending =>
    rw [run.step_eq_self (by rw [hPhase]; rfl), hPhase]
    rfl
  | idle =>
    unfold step
    rw [hPhase]
    rfl
  | begun =>
    unfold step compileStage
    rw [hPhase]
    dsimp only
    cases Dtd.compile run.declarationText (.ofText run.declarationText) with
    | error fault => simp [finish, during, entry, Phase.asked]
    | ok found => simp [during, Phase.asked, count_asked_logged]
  | compiled table =>
    have hSettle := count_asked_settle (run.reader run.documentText)
    unfold step readStage
    rw [hPhase]
    dsimp only
    cases (run.reader run.documentText).settle.1 <;>
      simp [finish, during, entry, Phase.asked, hSettle]
  | read table root =>
    unfold step
    rw [hPhase]
    simp [placeStage, during, Phase.asked, count_asked_logged, -List.map_cons]
  | placed table root =>
    unfold step
    rw [hPhase]
    simp [checkStage, finish, during, entry, Phase.asked]

theorem asked_steps (n : Nat) (run : Run) :
    (run.steps n).1.phase.asked = run.phase.asked + (run.steps n).2.count .asked := by
  induction n generalizing run with
  | zero => rfl
  | succ n ih =>
    simp only [steps, List.count_append, ih, asked_step, Nat.add_assoc]

theorem count_asked_of_reaches {start run : Run} {events : List Event}
    (hIdle : start.phase = .idle) (h : Reaches start run events) :
    events.count .asked = run.phase.asked := by
  obtain ⟨n, hn⟩ := exists_steps_of_reaches h
  have hAsked := asked_steps n start
  rw [hn, hIdle] at hAsked
  simpa [Phase.asked] using hAsked.symm

/-! ## Without a declaration -/

theorem ending_of_not_hasDeclaration {run : Run}
    (h : ¬ Dtd.HasDeclaration (Markup.maskComments run.declarationText)) :
    run.ending = .failed .noDefinitions := by
  rw [← Dtd.exists_compile_eq_ok_iff run.declarationText (.ofText run.declarationText)] at h
  unfold ending
  cases hCompile : Dtd.compile run.declarationText (.ofText run.declarationText) with
  | error fault => rfl
  | ok found => exact absurd ⟨found, hCompile⟩ h

theorem count_asked_of_not_hasDeclaration {start run : Run} {events : List Event}
    (hIdle : start.phase = .idle) (h : Reaches start run events)
    (hNone : ¬ Dtd.HasDeclaration (Markup.maskComments start.declarationText)) :
    events.count .asked = 0 := by
  obtain ⟨n, hn⟩ := exists_steps_of_reaches h
  have hAsked := asked_steps stepCount run
  rw [steps_of_steps hIdle hn, ending_of_not_hasDeclaration hNone,
    ← count_asked_of_reaches hIdle h] at hAsked
  change 0 = _ at hAsked
  omega

theorem execute_of_not_hasDeclaration {run : Run} (hIdle : run.phase = .idle)
    (h : ¬ Dtd.HasDeclaration (Markup.maskComments run.declarationText)) :
    run.execute.1 = .ok ((Ending.failed .noDefinitions).result run.time) := by
  rw [execute_idle hIdle, ending_of_not_hasDeclaration h]

/-! ## The result -/

theorem fails_of_ending {run : Run} {failure : Failure} (h : run.ending = .failed failure) :
    run.Fails failure := by
  unfold ending at h
  cases hCompile : Dtd.compile run.declarationText (.ofText run.declarationText) with
  | error fault =>
    rw [hCompile] at h
    obtain rfl : Failure.noDefinitions = failure := Ending.failed.inj h
    rw [Fails, ← Dtd.exists_compile_eq_ok_iff _ (.ofText run.declarationText), hCompile]
    rintro ⟨_, hOk⟩
    cases hOk
  | ok found =>
    rw [hCompile] at h
    cases hAnswer : run.answer <;> rw [hAnswer] at h <;> cases h <;> exact hAnswer

theorem result_of_error {start run : Run} {events : List Event} (hIdle : start.phase = .idle)
    (h : Reaches start run events) (hStatus : run.status = .error) :
    ∃ failure, start.ending = .failed failure ∧
      run.result? = some ((Ending.failed failure).result start.time) := by
  have hTerminal : run.status.isTerminal = true := by
    rw [hStatus]
    rfl
  obtain ⟨ending, hPhase⟩ := exists_ending_of_isTerminal hTerminal
  obtain rfl := eq_ending_of_reaches hIdle h hPhase
  cases hEnding : start.ending with
  | failed failure => exact ⟨failure, rfl, rfl⟩
  | checked found =>
    rw [hEnding] at hStatus
    cases hStatus

theorem result_of_success {run : Run} (hStatus : run.status = .success) :
    ∃ found, run.result? = some ((Ending.checked found).result run.time) := by
  have hTerminal : run.status.isTerminal = true := by
    rw [hStatus]
    rfl
  obtain ⟨ending, hPhase⟩ := exists_ending_of_isTerminal hTerminal
  cases ending with
  | checked found => exact ⟨found, by rw [result?, hPhase]⟩
  | failed failure =>
    rw [status_of_finished hPhase] at hStatus
    cases hStatus

/-! ## Every moment of a run -/

/-- What holds at a moment of a run that was idle at the start, after the given events. -/
structure Orderly (start run : Run) (events : List Event) : Prop where
  moves : run.step.1.status = run.status ∨ Status.Moves run.status run.step.1.status
  resultless : run.result? = none ↔ run.status = .idle ∨ run.status = .validating
  refuses : run.status = .validating → run.execute = (.error .inProgress, run, []) ∧
    ∀ reading : Reading, reading.converse run = (reading.settle.1, run, [])
  answers : run.status ≠ .validating → ∃ result, run.execute.1 = .ok result ∧
    run.execute.2.1.result? = some result ∧ run.execute.2.1.status.isTerminal = true
  repeats : run.status.isTerminal = true →
    ∃ result, run.result? = some result ∧ run.execute = (.ok result, run, [])
  rests : run.status.isTerminal = true →
    ∀ later more, Reaches run later more → later = run ∧ more = []
  asked : events.count .asked ≤ 1
  unasked : ¬ Dtd.HasDeclaration (Markup.maskComments start.declarationText) →
    events.count .asked = 0 ∧ ∀ document reader,
      ({ start with document, reader } : Run).execute.1 = start.execute.1
  failed : run.status = .error → ∃ failure, start.Fails failure ∧ run.result? = some
    { isValid := false, errors := [failure.error], summary := failure.summary, time := start.time }
  checked : run.status = .success →
    ∃ result, run.result? = some result ∧ (result.isValid = true ↔ result.errors = [])

/-- Whatever texts, settings and reader a run is made with, and however often it is asked to execute
meanwhile, it is orderly at every moment. -/
theorem orderly_of_reaches (declarations document : List Char) (settings : Settings)
    (reader : Reader) (time : String) {run : Run} {events : List Event}
    (h : Reaches { declarations, document, settings, reader, time } run events) :
    Orderly { declarations, document, settings, reader, time } run events where
  moves := moves_step run
  resultless := result?_eq_none_iff run
  refuses hStatus := ⟨execute_of_validating hStatus, converse_of_validating hStatus⟩
  answers := exists_execute_eq_ok
  repeats hTerminal := by
    obtain ⟨ending, hPhase⟩ := exists_ending_of_isTerminal hTerminal
    exact ⟨_, by rw [result?, hPhase], execute_of_finished hPhase⟩
  rests hTerminal later more hLater := by
    obtain ⟨ending, hPhase⟩ := exists_ending_of_isTerminal hTerminal
    exact eq_of_finished_of_reaches hPhase hLater
  asked := by
    rw [count_asked_of_reaches rfl h]
    exact run.phase.asked_le
  unasked hNone := by
    refine ⟨count_asked_of_not_hasDeclaration rfl h hNone, fun document reader => ?_⟩
    rw [execute_of_not_hasDeclaration rfl hNone]
    exact execute_of_not_hasDeclaration rfl hNone
  failed hStatus := by
    obtain ⟨failure, hEnding, hResult⟩ := result_of_error rfl h hStatus
    exact ⟨failure, fails_of_ending hEnding, hResult⟩
  checked hStatus := by
    obtain ⟨found, hResult⟩ := result_of_success hStatus
    refine ⟨_, hResult, ?_⟩
    simp [Ending.result, Ending.isValid, Ending.errors]

/-- The reader asks the run to execute and then finds no root. The run is asked once more. -/
theorem orderly_of_executed_twice :
    let start : Run :=
      { declarations := "<!ELEMENT r ANY>".toList, document := [], settings := {}
        reader := fun _ => .execute fun _ => .answer .noRoot [], time := "" }
    let run := start.execute.2.1
    let events := start.execute.2.2
    Reaches start run.execute.2.1 (events ++ run.execute.2.2) ∧
      Orderly start run.execute.2.1 (events ++ run.execute.2.2) ∧
      run.status = .error ∧ events.count .asked = 1 ∧ events.count .refused = 1 := by
  intro start run events
  have hReaches : Reaches start run.execute.2.1 (events ++ run.execute.2.2) :=
    .execute (.execute .refl)
  refine ⟨hReaches, orderly_of_reaches _ _ _ _ _ hReaches, ?_⟩
  decide +kernel

end Run

end DtdConformance
