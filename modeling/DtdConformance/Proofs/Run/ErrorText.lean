import DtdConformance.Proofs.Conformance.Marker
import DtdConformance.Proofs.Conformance.Message
import DtdConformance.Proofs.Conformance.Traversal
import DtdConformance.Proofs.Dtd.Redeclaration
import DtdConformance.Proofs.Run.Outcome

/-! # Errors read back

The errors of a run are texts. Those of a tree that was checked give back the diagnostics they were
written from, lines and messages apart. A failure is told without markers, so its text is read as a
message as a whole.
-/
namespace DtdConformance

open Document

namespace Conformance
set_option autoImplicit false

/-! ## Findings -/

theorem not_opensWithMarker {cs : List Char} (h : ∀ c ∈ cs.head?, c ≠ '[') :
    ¬ OpensWithMarker cs := by
  rintro ⟨digits, rest, _, _, rfl⟩
  exact h '[' rfl rfl

theorem head?_message (name : String) (problem : Problem) :
    (problem.message name).toList.head? = some 'E' := by
  obtain ⟨rest, hRest⟩ := messageOpening_isPrefix name problem
  rw [← hRest]
  rfl

theorem documentLine_diagnostic (finding : Finding) :
    finding.diagnostic.documentLine = finding.line.map Nat.cast := by
  unfold Finding.diagnostic
  cases finding.line <;> rfl

theorem legible_diagnostic {finding : Finding} (h : ∀ line ∈ finding.declaredAt, 0 < line) :
    finding.diagnostic.Legible where
  documentLine := by
    intro line hLine
    rw [documentLine_diagnostic, Option.mem_map] at hLine
    obtain ⟨n, _, rfl⟩ := hLine
    exact Int.natCast_nonneg n
  declarationLine := h
  -- Every message begins with a letter, so with neither a blank nor a bracket.
  unspaced := by
    intro c hHead
    have hMessage := head?_message finding.element finding.problem
    cases hHead.symm.trans hMessage
    decide
  unmarked := by
    intro _
    apply not_opensWithMarker
    intro c hHead
    have hMessage := head?_message finding.element finding.problem
    cases hHead.symm.trans hMessage
    decide

theorem declaredAt_of_mem_findings {table : Dtd.Table} {previewLength : Int}
    {root : Element (Option Nat)} {finding : Finding}
    (h : finding ∈ findings table previewLength root) :
    finding.declaredAt = (table.find? finding.element).map Dtd.Definition.line := by
  obtain ⟨e, _, hFinding⟩ := exists_element_of_mem_findings table previewLength h
  exact declaredAt_of_mem_findingsAt hFinding

theorem declaredAt_ne_none_iff {table : Dtd.Table} {previewLength : Int}
    {root : Element (Option Nat)} {finding : Finding}
    (h : finding ∈ findings table previewLength root) :
    finding.declaredAt ≠ none ↔ table.contains finding.element = true := by
  rw [declaredAt_of_mem_findings h, Dtd.Table.contains_eq_isSome_find?, ne_eq,
    Option.map_eq_none_iff, ← ne_eq, Option.ne_none_iff_isSome]

theorem legible_of_mem_findings {cs : List Char} {found : Dtd.Compilation}
    (hFound : Dtd.compile cs (.ofText cs) = .ok found) {previewLength : Int}
    {root : Element (Option Nat)} {finding : Finding}
    (h : finding ∈ findings found.table previewLength root) : finding.diagnostic.Legible := by
  apply legible_diagnostic
  intro line hLine
  rw [declaredAt_of_mem_findings h] at hLine
  obtain ⟨definition, hFind, rfl⟩ := Option.map_eq_some_iff.mp hLine
  exact Dtd.line_pos_of_compile hFound (Dtd.Table.mem_definitions_of_find? hFind)

end Conformance

namespace Run
set_option autoImplicit false

open Conformance

/-! ## Failures -/

theorem head?_error (failure : Failure) : ∃ c, failure.error.toList.head? = some c ∧
    Text.isBlank c = false ∧ c ≠ '[' := by
  have hHead (front back : String) {c : Char} {rest : List Char}
      (hFront : front.toList = c :: rest) : (front ++ back).toList.head? = some c := by
    rw [String.toList_append, hFront]
    rfl
  cases failure with
  | noDefinitions =>
    exact ⟨'N', congrArg List.head? String.toList_ofList, by decide, by decide⟩
  | noRoot => exact ⟨'X', congrArg List.head? String.toList_ofList, by decide, by decide⟩
  | malformed text =>
    exact ⟨'X', hHead "XML Syntax Error: " text String.toList_ofList, by decide, by decide⟩
  | internal text =>
    exact ⟨'I', hHead "Internal Validator Error: " text String.toList_ofList, by decide, by decide⟩

theorem ofText_error (failure : Failure) :
    Located.ofText failure.error = ⟨⟨none, none, failure.error⟩, false⟩ := by
  obtain ⟨first, hFirst, hPlain⟩ := head?_error failure
  apply ofText_of_head?
  intro c hHead
  cases hHead.symm.trans hFirst
  exact hPlain

/-! ## Runs -/

theorem map_ofText_errors {cs : List Char} {found : Dtd.Compilation}
    (hFound : Dtd.compile cs (.ofText cs) = .ok found) (previewLength : Int)
    (root : Element (Option Nat)) :
    (Ending.checked (findings found.table previewLength root)).errors.map Located.ofText =
      (findings found.table previewLength root).map fun finding => ⟨finding.diagnostic, true⟩ := by
  rw [Ending.errors, List.map_map]
  apply List.map_congr_left
  intro finding hMem
  rw [Function.comp_apply, Finding.render]
  exact (legible_of_mem_findings hFound hMem).ofText_render

/-- A legible diagnostic is read back from its text. So the errors of a run that succeeds give back
the diagnostics of its tree one by one, with a line of the declarations for the declared elements and
no others. The only error of a run that fails is read as a message without lines. -/
theorem errors_read_back :
    (∀ diagnostic : Diagnostic, diagnostic.Legible →
      Located.ofText diagnostic.render = ⟨diagnostic, true⟩) ∧
    ∀ (declarations document : List Char) (settings : Settings) (reader : Reader) (time : String),
      let run : Run := { declarations, document, settings, reader, time }
      ∃ result, run.execute.1 = .ok result ∧
        ((run.execute.2.1.status = .success ∧ ∃ found root,
            Dtd.compile run.declarationText (.ofText run.declarationText) = .ok found ∧
            run.answer = .root root ∧
            let told := findings found.table settings.textPreviewLength (run.placedTree root)
            result.errors.map Located.ofText =
                told.map (fun finding => ⟨finding.diagnostic, true⟩) ∧
              ∀ finding ∈ told, finding.diagnostic.declarationLine ≠ none ↔
                found.table.contains finding.element = true) ∨
          (run.execute.2.1.status = .error ∧ ∃ error, result.errors = [error] ∧
            Located.ofText error = ⟨⟨none, none, error⟩, false⟩)) := by
  refine ⟨fun diagnostic hLegible => hLegible.ofText_render, ?_⟩
  intro declarations document settings reader time run
  refine ⟨run.ending.result time, execute_idle rfl, ?_⟩
  rw [status_execute_idle rfl]
  cases hEnding : run.ending with
  | checked told =>
    obtain ⟨found, root, hFound, hRoot, rfl⟩ := exists_of_ending_eq_checked hEnding
    refine .inl ⟨rfl, found, root, hFound, hRoot, map_ofText_errors hFound .., ?_⟩
    intro finding hMem
    exact declaredAt_ne_none_iff hMem
  | failed failure => exact .inr ⟨rfl, failure.error, rfl, ofText_error failure⟩

/-- The message is full of brackets, yet it opens with no marker of its own. -/
theorem errors_read_back_of_bracketed :
    let diagnostic : Diagnostic := ⟨none, none, "[DTD: ] [XML: 7]\n[DTD: 7]"⟩
    diagnostic.Legible ∧ Located.ofText diagnostic.render = ⟨diagnostic, true⟩ := by
  intro diagnostic
  have hOpening : diagnostic.message.toList =
      declarationMarker ++ ']' :: " [XML: 7]\n[DTD: 7]".toList := by
    decide +kernel
  have hLegible : diagnostic.Legible := by
    refine ⟨nofun, nofun, ?_, fun _ => ?_⟩
    · rw [hOpening]
      rintro c ⟨⟩
      decide
    · rintro ⟨digits, rest, hSome, hDigits, hMessage⟩
      have hRest := List.append_cancel_left (hOpening.symm.trans hMessage)
      cases digits with
      | nil => exact hSome rfl
      | cons c digits =>
        obtain ⟨rfl, _⟩ := List.cons.inj hRest
        exact absurd (hDigits ']' List.mem_cons_self) (by decide)
  exact ⟨hLegible, errors_read_back.1 diagnostic hLegible⟩

end Run

end DtdConformance
