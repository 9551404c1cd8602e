import DtdConformance.Proofs.Conformance.Verdict
import DtdConformance.Run.Lifecycle

/-! # The outcome of a run

What a run that is still idle ends with, said at once and not stage by stage. The verdict is
positive exactly when there is a declaration, the reader has given a tree, and the tree conforms to
the table of the declarations. Lines and settings have no part in it.
-/
namespace DtdConformance
set_option autoImplicit false

open Conformance Document

namespace Correlation

/-- The lines of a tree are labels. -/
theorem map_lines_correlate (useReaderLines : Bool) (tags : List Markup.TagOccurrence)
    (root : Element (Option Nat)) :
    (lines useReaderLines (correlate tags root)).map (fun _ => ()) = root.map (fun _ => ()) := by
  have hCorrelate : (correlate tags root).map (fun _ => ()) = root.map (fun _ => ()) :=
    Element.map_relabel (f := place) (g := fun _ => ()) (k := fun _ => ()) (fun _ _ _ => rfl) ..
  unfold lines
  split <;> rw [Element.map_map, hCorrelate]

end Correlation

/-- Where an answer takes a run. -/
def Run.Answer.phase (table : Dtd.Table) : Run.Answer → Run.Phase
  | .root tree => .read table tree
  | .noRoot => .finished (.failed .noRoot)
  | .malformed text => .finished (.failed (.malformed text))
  | .broken text => .finished (.failed (.internal text))

namespace Run

def placedTree (run : Run) (root : Element (Option Nat)) : Element (Option Nat) :=
  Correlation.lines run.settings.useParserLines
    (Correlation.correlate (Markup.startTags run.documentText (.ofText run.documentText)) root)

/-- What the reader says in the end. -/
def answer (run : Run) : Answer := (run.reader run.documentText).settle.1

/-- The end of a run that starts idle. -/
def ending (run : Run) : Ending :=
  match Dtd.compile run.declarationText (.ofText run.declarationText) with
  | .error _ => .failed .noDefinitions
  | .ok found =>
    match run.answer with
    | .root root =>
      .checked (findings found.table run.settings.textPreviewLength (run.placedTree root))
    | .noRoot => .failed .noRoot
    | .malformed text => .failed (.malformed text)
    | .broken text => .failed (.internal text)

theorem steps_finished {run : Run} {ending : Ending} (h : run.phase = .finished ending)
    (n : Nat) : run.steps n = (run, []) := by
  have hStep : run.step = (run, []) := run.step_eq_self (by rw [h]; rfl)
  induction n with
  | zero => rfl
  | succ n ih =>
    rw [steps, hStep]
    simp only [ih, List.append_nil]

theorem steps_succ (run : Run) (n : Nat) : (run.steps (n + 1)).1 = (run.step.1.steps n).1 := rfl

theorem step_idle {run : Run} (h : run.phase = .idle) :
    run.step.1 = { run with phase := .begun } := by
  unfold step
  rw [h]

theorem step_begun {run : Run} (h : run.phase = .begun) : run.step.1 = { run with
    phase := match Dtd.compile run.declarationText (.ofText run.declarationText) with
      | .error _ => .finished (.failed .noDefinitions)
      | .ok found => .compiled found.table } := by
  unfold step
  rw [h]
  unfold compileStage
  dsimp only
  cases Dtd.compile run.declarationText (.ofText run.declarationText) <;> rfl

theorem step_compiled {run : Run} {table : Dtd.Table} (h : run.phase = .compiled table) :
    run.step.1 = { run with phase := run.answer.phase table } := by
  unfold step
  rw [h]
  unfold readStage answer
  dsimp only
  cases (run.reader run.documentText).settle.1 <;> rfl

theorem step_read {run : Run} {table : Dtd.Table} {root : Element (Option Nat)}
    (h : run.phase = .read table root) :
    run.step.1 = { run with phase := .placed table (run.placedTree root) } := by
  unfold step
  rw [h]
  rfl

theorem step_placed {run : Run} {table : Dtd.Table} {root : Element (Option Nat)}
    (h : run.phase = .placed table root) : run.step.1 = { run with
      phase := .finished (.checked (findings table run.settings.textPreviewLength root)) } := by
  unfold step
  rw [h]
  rfl

/-- The stages of a run that has been begun lead to its end and change nothing else. -/
theorem steps_begun {run : Run} (h : run.phase = .begun) :
    (run.steps Stage.all.length).1 = { run with phase := .finished run.ending } := by
  change (run.steps 4).1 = _
  rw [steps_succ, step_begun h, ending]
  cases Dtd.compile run.declarationText (.ofText run.declarationText) with
  | error fault => rw [steps_finished rfl]
  | ok found =>
    rw [steps_succ, step_compiled rfl]
    change (steps 2 { run with phase := run.answer.phase found.table }).1 = _
    cases run.answer with
    | root root =>
      rw [steps_succ, step_read rfl, steps_succ, step_placed rfl]
      rfl
    | noRoot | malformed text | broken text => exact congrArg Prod.fst (steps_finished rfl 2)

theorem steps_idle {run : Run} (h : run.phase = .idle) :
    (run.steps stepCount).1 = { run with phase := .finished run.ending } := by
  rw [stepCount, steps_succ, step_idle h, steps_begun rfl]
  rfl

theorem execute_idle {run : Run} (h : run.phase = .idle) :
    run.execute.1 = .ok (run.ending.result run.time) := by
  have hStatus : run.status ≠ .validating := by
    rw [status, h]
    exact Status.noConfusion
  unfold execute
  rw [if_neg hStatus]
  simp [result?, steps_idle h]

theorem exists_of_ending_eq_checked {run : Run} {told : List Finding}
    (h : run.ending = .checked told) : ∃ found root,
      Dtd.compile run.declarationText (.ofText run.declarationText) = .ok found ∧
      run.answer = .root root ∧
      told = findings found.table run.settings.textPreviewLength (run.placedTree root) := by
  unfold ending at h
  split at h
  · cases h
  · next found hFound =>
    split at h
    · next root hRoot => exact ⟨found, root, hFound, hRoot, (Ending.checked.inj h).symm⟩
    all_goals cases h

theorem run_execute_idle {run : Run} (h : run.phase = .idle) :
    run.execute.2.1 = { run with phase := .finished run.ending } := by
  have hStatus : run.status ≠ .validating := by
    rw [status, h]
    exact Status.noConfusion
  rw [execute, if_neg hStatus]
  exact steps_idle h

theorem status_execute_idle {run : Run} (h : run.phase = .idle) :
    run.execute.2.1.status = if run.ending.isFailure then .error else .success :=
  congrArg status (run_execute_idle h)

/-! ## The verdict -/

theorem conforms_placedTree_iff (run : Run) (table : Dtd.Table) (root : Element (Option Nat)) :
    Conforms table (run.placedTree root) ↔ Conforms table root :=
  conforms_congr (Correlation.map_lines_correlate ..)

/-- What has to hold of the texts and the tree for a positive verdict. -/
def Valid (declarations : List Char) (answer : Answer) : Prop :=
  Dtd.HasDeclaration (Markup.maskComments declarations) ∧
    ∃ root, answer = .root root ∧
      ∀ found, Dtd.compile declarations (.ofText declarations) = .ok found →
        Conforms found.table root

theorem isValid_ending_iff (run : Run) :
    run.ending.isValid = true ↔ Valid run.declarationText run.answer := by
  unfold Valid ending
  rw [← Dtd.exists_compile_eq_ok_iff run.declarationText (.ofText run.declarationText)]
  cases hCompile : Dtd.compile run.declarationText (.ofText run.declarationText) with
  | error fault => simp [Ending.isValid]
  | ok found =>
    cases run.answer with
    | root root =>
      have hFindings := findings_eq_nil_iff (Dtd.faithful_of_compile hCompile)
        run.settings.textPreviewLength (run.placedTree root)
      rw [conforms_placedTree_iff] at hFindings
      simpa [Ending.isValid] using hFindings
    | noRoot => simp [Ending.isValid]
    | malformed text => simp [Ending.isValid]
    | broken text => simp [Ending.isValid]

/-- A run answers with a result, which is positive exactly when the declarations hold one outside
comments, the reader gives a root, and the tree conforms to the table. Other settings give the same
verdict. -/
theorem execute_isValid_iff (declarations document : List Char) (settings : Settings)
    (reader : Reader) (time : String) :
    let run : Run := { declarations, document, settings, reader, time }
    let text := Text.normalizeLineEndings declarations
    ∃ result, run.execute.1 = .ok result ∧
      (result.isValid = true ↔
        Dtd.HasDeclaration (Markup.maskComments text) ∧
        ∃ root, ((reader run.documentText).settle).1 = .root root ∧
          ∀ found, Dtd.compile text (.ofText text) = .ok found → Conforms found.table root) ∧
      ∀ others, ∃ other, ({ run with settings := others } : Run).execute.1 = .ok other ∧
        other.isValid = result.isValid := by
  intro run text
  refine ⟨run.ending.result run.time, execute_idle rfl, run.isValid_ending_iff, fun others => ?_⟩
  refine ⟨_, execute_idle rfl, ?_⟩
  rw [Bool.eq_iff_iff]
  exact (isValid_ending_iff _).trans run.isValid_ending_iff.symm

end Run

end DtdConformance
