import DtdConformance.Proofs.Correlation.Order
import DtdConformance.Proofs.Markup.Order
import DtdConformance.Proofs.Run.ErrorText

/-! # Errors in the order of their lines

A tree is checked in the order in which its elements have taken start tags. Without the lines of the
reader, the lines of the errors never go back, however the tree and the text disagree.
-/
namespace DtdConformance

open Document

namespace Conformance
set_option autoImplicit false

variable {table : Dtd.Table} {previewLength : Int} {root : Element (Option Nat)}

theorem line_mem_labels {found : List Finding} (hFound : found = findings table previewLength root)
    {line : Nat} (h : line ∈ found.filterMap Finding.line) :
    line ∈ root.preorder.filterMap Element.label := by
  subst hFound
  obtain ⟨finding, hMem, hLine⟩ := List.mem_filterMap.mp h
  obtain ⟨e, hReached, hFinding⟩ := exists_element_of_mem_findings table previewLength hMem
  have hLabel := (element_and_line_of_mem_findingsAt hFinding).2
  exact List.mem_filterMap.mpr
    ⟨e, (root.reached_sublist table.contains).mem hReached, hLabel.symm.trans hLine⟩

theorem pairwise_line_findings (h : (root.preorder.filterMap Element.label).Pairwise (· ≤ ·)) :
    ((findings table previewLength root).filterMap Finding.line).Pairwise (· ≤ ·) := by
  have hReached := (List.pairwise_filterMap.mp h).sublist (root.reached_sublist table.contains)
  rw [findings_eq_diagnoses, diagnoses_eq_flatMap_reached, List.pairwise_filterMap,
    List.pairwise_flatMap]
  constructor
  -- The findings of one element share its line.
  · intro e _
    apply List.pairwise_of_forall_mem_list
    intro finding hFinding other hOther line hLine later hLater
    rw [(element_and_line_of_mem_findingsAt hFinding).2] at hLine
    rw [(element_and_line_of_mem_findingsAt hOther).2] at hLater
    exact Nat.le_of_eq (Option.some.inj (hLine.symm.trans hLater))
  · apply hReached.imp
    intro e other hLe finding hFinding found hFound line hLine later hLater
    rw [(element_and_line_of_mem_findingsAt hFinding).2] at hLine
    rw [(element_and_line_of_mem_findingsAt hFound).2] at hLater
    exact hLe line hLine later hLater

end Conformance

namespace Run
set_option autoImplicit false

open Conformance Correlation

/-- The lines of the findings, without those that are unknown. -/
def Ending.lines : Ending → List Nat
  | .checked found => found.filterMap Finding.line
  | .failed _ => []

theorem labels_placedTree_sublist {run : Run} (h : run.settings.useParserLines = false)
    (root : Element (Option Nat)) :
    ((run.placedTree root).preorder.filterMap Element.label).Sublist
      ((Markup.startTags run.documentText (.ofText run.documentText)).map
        Markup.TagOccurrence.line) := by
  rw [placedTree, h]
  exact (labels_lines_sublist _).trans ((taken_correlate_sublist _ root).map _)

theorem pairwise_lines_ending {run : Run} (h : run.settings.useParserLines = false) :
    run.ending.lines.Pairwise (· ≤ ·) := by
  cases hEnding : run.ending with
  | failed failure => exact List.Pairwise.nil
  | checked told =>
    obtain ⟨found, root, _, _, rfl⟩ := exists_of_ending_eq_checked hEnding
    apply pairwise_line_findings
    exact (Markup.pairwise_line_startTags run.documentText).sublist (labels_placedTree_sublist h root)

theorem line_bounds_of_mem_ending {run : Run} (h : run.settings.useParserLines = false) {line : Nat}
    (hLine : line ∈ run.ending.lines) : 1 ≤ line ∧ line ≤ run.documentText.count '\n' + 1 := by
  cases hEnding : run.ending with
  | failed failure =>
    rw [hEnding] at hLine
    cases hLine
  | checked told =>
    rw [hEnding] at hLine
    obtain ⟨found, root, _, _, hTold⟩ := exists_of_ending_eq_checked hEnding
    have hLabel := (labels_placedTree_sublist h root).mem (line_mem_labels hTold hLine)
    obtain ⟨tag, hTag, rfl⟩ := List.mem_map.mp hLabel
    exact Markup.line_bounds_of_mem_startTags hTag

theorem documentLines_errors_ending (run : Run) :
    (run.ending.errors.filterMap fun error => (Located.ofText error).diagnostic.documentLine) =
      run.ending.lines.map Nat.cast := by
  cases hEnding : run.ending with
  | failed failure =>
    rw [Ending.errors, List.filterMap_cons, ofText_error]
    rfl
  | checked told =>
    obtain ⟨found, root, hFound, _, rfl⟩ := exists_of_ending_eq_checked hEnding
    have hRead := congrArg (List.filterMap fun located => located.diagnostic.documentLine)
      (map_ofText_errors hFound run.settings.textPreviewLength (run.placedTree root))
    rw [List.filterMap_map, List.filterMap_map] at hRead
    rw [Ending.lines, List.map_filterMap]
    simp only [← documentLine_diagnostic]
    exact hRead

/-- When the lines of the reader are not used, the known lines of the findings never go back, and
each is a line of the text. These are the lines that are read off the errors. It takes no relation
between the tree of the reader and the text. -/
theorem execute_lines_in_order (declarations document : List Char) (settings : Settings)
    (reader : Reader) (time : String) (h : settings.useParserLines = false) :
    let run : Run := { declarations, document, settings, reader, time }
    ∃ ending, run.execute.2.1.phase = .finished ending ∧
      run.execute.1 = .ok (ending.result time) ∧
      ending.lines.Pairwise (· ≤ ·) ∧
      (∀ line ∈ ending.lines, 1 ≤ line ∧ line ≤ run.documentText.count '\n' + 1) ∧
      ((ending.result time).errors.filterMap fun error =>
        (Located.ofText error).diagnostic.documentLine) = ending.lines.map Nat.cast := by
  intro run
  have hPhase : run.execute.2.1.phase = .finished run.ending :=
    congrArg phase (run_execute_idle rfl)
  exact ⟨run.ending, hPhase, execute_idle rfl, pairwise_lines_ending h,
    fun line hLine => line_bounds_of_mem_ending h hLine, documentLines_errors_ending run⟩

/-- The tree has an element that is not in the text, and one more than the text has tags for. The
others are told on lines that only grow. -/
theorem execute_lines_in_order_of_strange_tree :
    let root : Element (Option Nat) :=
      ⟨"a", some 9, .element "x" (some 8) .done <| .element "b" (some 7) .done <|
        .element "a" (some 6) (.text ['?'] .done) <| .element "b" (some 5) .done <|
        .element "b" (some 4) .done .done⟩
    let run : Run :=
      { declarations := "<!ELEMENT a EMPTY>".toList
        document := "<a>\n<b/>\n<a>?\n</a><b/></a>".toList
        settings := { useParserLines := false }
        reader := fun _ => .answer (.root root) [], time := "" }
    run.settings.useParserLines = false ∧ ∃ ending : Ending, run.execute.1 = .ok (ending.result "") ∧
      ending.lines = [1, 2, 3, 4] ∧ ending.lines.Pairwise (· ≤ ·) ∧
      (∀ line ∈ ending.lines, 1 ≤ line ∧ line ≤ 4) ∧
      ((ending.result "").errors.filterMap fun error =>
        (Located.ofText error).diagnostic.documentLine) = [1, 2, 3, 4] := by
  intro root run
  obtain ⟨ending, hPhase, hResult, hOrder, hBounds, hRead⟩ := execute_lines_in_order
    run.declarations run.document run.settings run.reader run.time rfl
  have hEnding : run.ending = ending :=
    Phase.finished.inj ((congrArg phase (run_execute_idle rfl)).symm.trans hPhase)
  have hLines : run.ending.lines = [1, 2, 3, 4] := by decide +kernel
  rw [hEnding] at hLines
  refine ⟨rfl, ending, hResult, hLines, hOrder, hBounds, ?_⟩
  rw [hRead, hLines]
  rfl

end Run

end DtdConformance
