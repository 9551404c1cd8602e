import DtdConformance.Proofs.Run.Outcome
import DtdConformance.Proofs.Text.LineEnding

/-! # Line endings make no difference

What a run ends with is settled by the texts as they are read, the settings and the reader. So it
does not depend on how a file ends its lines, and line numbers are the same in all its forms.
-/
namespace DtdConformance
set_option autoImplicit false

namespace Run

open Text

theorem ending_congr {run other : Run} (hDeclarations : other.declarationText = run.declarationText)
    (hDocument : other.documentText = run.documentText) (hSettings : other.settings = run.settings)
    (hReader : other.reader = run.reader) : other.ending = run.ending := by
  unfold ending answer placedTree
  rw [hDeclarations, hDocument, hSettings, hReader]

theorem declarationText_of_rendition {run : Run} {declarations : List Char}
    (h : Rendition declarations run.declarations) (hReturn : '\r' ∉ declarations) :
    run.declarationText = declarations :=
  normalizeLineEndings_of_rendition h hReturn

theorem documentText_of_rendition {run : Run} {document : List Char}
    (h : MarkedRendition document run.document) (hReturn : '\r' ∉ document)
    (hMark : document.head? ≠ some byteOrderMark) : run.documentText = document :=
  stripByteOrderMark_normalizeLineEndings h hReturn hMark

/-- The renditions of a text without carriage returns are the files that are read as this text, and
a byte order mark is read over. A run on such files goes as a run on the texts themselves. -/
theorem execute_of_renditions :
    (∀ cs, normalizeLineEndings (normalizeLineEndings cs) = normalizeLineEndings cs ∧
      '\r' ∉ normalizeLineEndings cs) ∧
    (∀ cs ws, '\r' ∉ cs → (Rendition cs ws ↔ normalizeLineEndings ws = cs)) ∧
    ∀ declarations document declarationFile documentFile : List Char,
      '\r' ∉ declarations → '\r' ∉ document → document.head? ≠ some byteOrderMark →
      Rendition declarations declarationFile → MarkedRendition document documentFile →
        stripByteOrderMark (normalizeLineEndings documentFile) = document ∧
        ∀ (settings : Settings) (reader : Reader) (time fileTime : String),
          let run : Run := { declarations, document, settings, reader, time }
          let other : Run :=
            { declarations := declarationFile, document := documentFile, settings, reader,
              time := fileTime }
          other.execute.2.1.status = run.execute.2.1.status ∧
          ∃ result found, run.execute.1 = .ok result ∧ other.execute.1 = .ok found ∧
            found.isValid = result.isValid ∧ found.errors = result.errors ∧
            found.summary = result.summary := by
  refine ⟨fun cs => ?_, fun cs ws hReturn => rendition_iff hReturn, ?_⟩
  · have hNone := not_mem_normalizeLineEndings cs
    exact ⟨normalizeLineEndings_of_not_mem hNone, hNone⟩
  · intro declarations document declarationFile documentFile hDeclarations hDocument hMark
      hDeclarationFile hDocumentFile
    refine ⟨stripByteOrderMark_normalizeLineEndings hDocumentFile hDocument hMark, ?_⟩
    intro settings reader time fileTime run other
    have hDeclarationText : other.declarationText = run.declarationText := by
      rw [declarationText_of_rendition hDeclarationFile hDeclarations,
        declarationText_of_rendition (rendition_self declarations) hDeclarations]
    have hDocumentText : other.documentText = run.documentText := by
      rw [documentText_of_rendition hDocumentFile hDocument hMark,
        documentText_of_rendition (markedRendition_self document) hDocument hMark]
    have hEnding : other.ending = run.ending :=
      ending_congr hDeclarationText hDocumentText rfl rfl
    constructor
    · rw [status_execute_idle rfl, status_execute_idle rfl, hEnding]
    · refine ⟨_, _, execute_idle rfl, execute_idle rfl, ?_⟩
      rw [hEnding]
      exact ⟨rfl, rfl, rfl⟩

/-- All three line endings, a mark, and an element on the line after them. -/
theorem execute_of_mixed_renditions :
    let declarations := "<!ELEMENT r ANY>\n".toList
    let declarationFile := "<!ELEMENT r ANY>\r".toList
    let document := "<r>\n\n\n<x/></r>".toList
    let documentFile := byteOrderMark :: "<r>\r\r\n\n<x/></r>".toList
    let reader : Reader := fun _ =>
      .answer (.root ⟨"r", none, .element "x" none .done .done⟩) []
    let file : Run :=
      { declarations := declarationFile, document := documentFile, settings := {}, reader
        time := "" }
    '\r' ∉ declarations ∧ '\r' ∉ document ∧ document.head? ≠ some byteOrderMark ∧
      Rendition declarations declarationFile ∧ MarkedRendition document documentFile ∧
      file.execute.2.1.status = .success ∧ ∃ found, file.execute.1 = .ok found ∧
        found.errors = ["[XML: 4] Element <x> is used in XML but not defined in DTD."] := by
  intro declarations declarationFile document documentFile reader file
  let run : Run := { declarations, document, settings := {}, reader, time := "" }
  have hDeclarations : '\r' ∉ declarations := by decide
  have hDocument : '\r' ∉ document := by decide
  have hMark : document.head? ≠ some byteOrderMark := by decide
  have hDeclarationFile : Rendition declarations declarationFile :=
    (rendition_iff hDeclarations).mpr (by decide)
  have hDocumentFile : MarkedRendition document documentFile :=
    ⟨_, (rendition_iff hDocument).mpr (by decide), .inr rfl⟩
  have hRun : run.execute.1 = .ok
      { isValid := false
        errors := ["[XML: 4] Element <x> is used in XML but not defined in DTD."]
        summary := "Validation Failed. Found 1 structural error(s).", time := "" } := by
    decide +kernel
  have hSuccess : run.execute.2.1.status = .success := by decide +kernel
  obtain ⟨hStatus, result, found, hResult, hFound, _, hErrors, _⟩ :=
    (execute_of_renditions.2.2 declarations document declarationFile documentFile hDeclarations
      hDocument hMark hDeclarationFile hDocumentFile).2 {} reader "" ""
  cases hResult.symm.trans hRun
  exact ⟨hDeclarations, hDocument, hMark, hDeclarationFile, hDocumentFile,
    hStatus.trans hSuccess, found, hFound, hErrors⟩

end Run

end DtdConformance
