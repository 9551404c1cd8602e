import DtdConformance.Proofs.Conformance.Traversal
import DtdConformance.Proofs.Run.Outcome

/-! # The lines that are told

Every finding belongs to the element that was looked at and carries the line of that element. In a
tree with at least one start tag taken, this is the line of the tag that the element has taken, or
else the line of the reader where such lines are used. In a tree without any tag taken no line is
told, whatever the reader knows.
-/
namespace DtdConformance

open Document

namespace Conformance
set_option autoImplicit false

section

variable {α : Type} (table : Dtd.Table) (previewLength : Int) (lineOf : α → Option Nat)

/-- The findings of a tree, each with the element that was looked at. -/
def attributed (root : Element α) : List (Element α × Finding) :=
  (root.reached table.contains).flatMap fun e =>
    (findingsAt table previewLength (e.map lineOf)).map fun finding => (e, finding)

theorem map_snd_attributed (root : Element α) :
    (attributed table previewLength lineOf root).map Prod.snd =
      findings table previewLength (root.map lineOf) := by
  rw [attributed, List.map_flatMap, findings_eq_diagnoses, diagnoses_eq_flatMap_reached,
    Element.reached_map, List.flatMap_map]
  simp only [List.map_map, Function.comp_def, List.map_id']

end

variable {α : Type} {table : Dtd.Table} {previewLength : Int}

theorem mem_attributed {lineOf : α → Option Nat} {root e : Element α} {finding : Finding}
    (h : (e, finding) ∈ attributed table previewLength lineOf root) :
    e ∈ root.preorder ∧ finding.element = e.name ∧ finding.line = lineOf e.label := by
  obtain ⟨seen, hSeen, hFinding⟩ := List.mem_flatMap.mp h
  obtain ⟨found, hFound, hEq⟩ := List.mem_map.mp hFinding
  cases hEq
  obtain ⟨entry, hEntry, rfl⟩ := List.mem_map.mp hSeen
  refine ⟨?_, element_and_line_of_mem_findingsAt hFound⟩
  rw [← root.map_snd_lineage]
  exact List.mem_map_of_mem (List.mem_of_mem_filter hEntry)

end Conformance

namespace Correlation
set_option autoImplicit false

/-- The line that is told for a place in the given tree. -/
def lineIn (useReaderLines : Bool) (root : Element Place) (place : Place) : Option Nat :=
  if sightedCount root = 0 then none else place.line useReaderLines

theorem lines_eq_map (useReaderLines : Bool) (root : Element Place) :
    lines useReaderLines root = root.map (lineIn useReaderLines root) := by
  unfold lines
  split
  · next hNone => exact congrArg root.map (funext fun _ => (if_pos hNone).symm)
  · next hSome => exact congrArg root.map (funext fun _ => (if_neg hSome).symm)

theorem readerLine_place (cursor : Cursor) (name : String) (readerLine : Option Nat) :
    (place cursor name readerLine).1.readerLine = readerLine := by
  unfold place
  split <;> rfl

/-- Taking start tags does not disturb the lines of the reader. -/
theorem map_readerLine_correlate (tags : List Markup.TagOccurrence)
    (root : Element (Option Nat)) : (correlate tags root).map Place.readerLine = root := by
  rw [correlate, Element.map_relabel readerLine_place, Element.map_self]

theorem readerLine_mem_of_mem_correlate {tags : List Markup.TagOccurrence}
    {root : Element (Option Nat)} {e : Element Place} (h : e ∈ (correlate tags root).preorder) :
    ∃ f ∈ root.preorder, f.label = e.label.readerLine := by
  refine ⟨e.map Place.readerLine, ?_, rfl⟩
  rw [← map_readerLine_correlate tags root, Element.preorder_map]
  exact List.mem_map_of_mem h

theorem sightedCount_ne_zero_iff (root : Element Place) :
    sightedCount root ≠ 0 ↔ ∃ e ∈ root.preorder, e.label.isSighted = true := by
  rw [sightedCount, ← Nat.pos_iff_ne_zero, List.countP_pos_iff]

theorem lineIn_eq (useReaderLines : Bool) (root : Element Place) (place : Place) :
    lineIn useReaderLines root place =
      if ∃ e ∈ root.preorder, e.label.isSighted = true then place.line useReaderLines
      else none := by
  rw [lineIn]
  by_cases hNone : sightedCount root = 0
  · rw [if_pos hNone, if_neg fun hSome => (sightedCount_ne_zero_iff root).mpr hSome hNone]
  · rw [if_neg hNone, if_pos ((sightedCount_ne_zero_iff root).mp hNone)]

end Correlation

namespace Run
set_option autoImplicit false

open Conformance Correlation

/-- The errors of a run that comes to check a tree. -/
theorem errors_of_root {run : Run} {found : Dtd.Compilation} {root : Element (Option Nat)}
    (hFound : Dtd.compile run.declarationText (.ofText run.declarationText) = .ok found)
    (hRoot : run.answer = .root root) :
    let placed := correlate (Markup.startTags run.documentText (.ofText run.documentText)) root
    (run.ending.result run.time).errors =
      (attributed found.table run.settings.textPreviewLength
        (lineIn run.settings.useParserLines placed) placed).map fun entry => entry.2.render := by
  intro placed
  have hEnding : run.ending = .checked (findings found.table run.settings.textPreviewLength
      (lines run.settings.useParserLines placed)) := by
    unfold ending
    rw [hFound, hRoot]
    rfl
  rw [hEnding, lines_eq_map, ← map_snd_attributed]
  exact List.map_map

/-- When a run comes to check a tree, its errors are findings about elements of the tree. If the
tree has an element that has taken a start tag, a finding is on the line of the tag of its own
element, or on the line of the reader if there is no such tag and these lines are used. Otherwise
no finding has a line. So all lines are known if the reader knows them, they are used, and some
element has taken a tag. -/
theorem execute_lines_of_findings (declarations document : List Char) (settings : Settings)
    (reader : Reader) (time : String) (found : Dtd.Compilation) (root : Element (Option Nat)) :
    let run : Run := { declarations, document, settings, reader, time }
    let text := run.documentText
    let placed := correlate (Markup.startTags text (.ofText text)) root
    let told := attributed found.table settings.textPreviewLength
      (lineIn settings.useParserLines placed) placed
    Dtd.compile run.declarationText (.ofText run.declarationText) = .ok found →
    (reader text).settle.1 = .root root →
      (∃ result, run.execute.1 = .ok result ∧
        result.errors = told.map fun entry => entry.2.render) ∧
      placed.map Place.readerLine = root ∧
      (∀ entry ∈ told, entry.1 ∈ placed.preorder ∧ entry.2.element = entry.1.name ∧
        entry.2.line =
          if ∃ e ∈ placed.preorder, e.label.isSighted = true then
            match entry.1.label.sighting? with
            | some sighting => some sighting.tag.line
            | none => if settings.useParserLines then entry.1.label.readerLine else none
          else none) ∧
      (settings.useParserLines = true → (∃ e ∈ placed.preorder, e.label.isSighted = true) →
        (∀ e ∈ root.preorder, e.label ≠ none) → ∀ entry ∈ told, entry.2.line ≠ none) := by
  intro run text placed told hFound hRoot
  have hLine : ∀ entry ∈ told, entry.1 ∈ placed.preorder ∧ entry.2.element = entry.1.name ∧
      entry.2.line =
        if ∃ e ∈ placed.preorder, e.label.isSighted = true then
          entry.1.label.line settings.useParserLines
        else none := by
    rintro ⟨e, finding⟩ hEntry
    rw [← lineIn_eq]
    exact mem_attributed hEntry
  refine ⟨⟨run.ending.result time, execute_idle rfl, errors_of_root hFound hRoot⟩,
    map_readerLine_correlate _ root, hLine, ?_⟩
  intro hUse hSighted hKnown entry hEntry hUnknown
  obtain ⟨hMem, _, hEntryLine⟩ := hLine entry hEntry
  rw [hUnknown, if_pos hSighted, Place.line] at hEntryLine
  split at hEntryLine
  · cases hEntryLine
  · obtain ⟨f, hf, hLabel⟩ := readerLine_mem_of_mem_correlate hMem
    rw [if_pos hUse, ← hLabel] at hEntryLine
    exact hKnown f hf hEntryLine.symm

/-- The scan finds no start tag for a name with a middle dot. It finds that of the root, so the
reader tells the line of the other element. -/
theorem execute_lines_of_dotted_child :
    let root : Element (Option Nat) :=
      ⟨"r", some 1, .text ['\n'] <| .element "a·b" (some 2) .done .done⟩
    let found : Dtd.Compilation :=
      ⟨⟨[⟨"r", .any, "ANY", 1⟩]⟩, [], [⟨.compiler, .info, "Compiled 1 element definition(s)"⟩]⟩
    let run : Run :=
      { declarations := "<!ELEMENT r ANY>".toList, document := "<r>\n<a·b/></r>".toList
        settings := {}, reader := fun _ => .answer (.root root) [], time := "" }
    let text := run.documentText
    let placed := correlate (Markup.startTags text (.ofText text)) root
    let told := attributed found.table 20 (lineIn true placed) placed
    Dtd.compile run.declarationText (.ofText run.declarationText) = .ok found ∧
      run.answer = .root root ∧
      (∃ result, run.execute.1 = .ok result ∧
        result.errors = told.map fun entry => entry.2.render) ∧
      (∀ entry ∈ told, entry.2.line ≠ none) ∧
      told.map (fun entry => (entry.1.name, entry.2.line)) = [("a·b", some 2)] := by
  intro root found run text placed told
  have hFound : Dtd.compile run.declarationText (.ofText run.declarationText) = .ok found := by
    decide +kernel
  obtain ⟨hErrors, _, _, hKnown⟩ := execute_lines_of_findings run.declarations run.document {}
    run.reader "" found root hFound rfl
  refine ⟨hFound, rfl, hErrors, hKnown rfl ?_ (by decide), by decide +kernel⟩
  decide +kernel

/-- When the only element finds no start tag, its line is lost although the reader knows it. -/
theorem line_lost_of_dotted_root :
    let root : Element (Option Nat) := ⟨"a·b", some 1, .done⟩
    let run : Run :=
      { declarations := "<!ELEMENT r EMPTY>".toList, document := "<a·b/>".toList
        settings := {}, reader := fun _ => .answer (.root root) [], time := "" }
    run.settings.useParserLines = true ∧ (∀ e ∈ root.preorder, e.label ≠ none) ∧
      run.execute.1 = .ok
        { isValid := false
          errors := ["[XML: ?] Element <a·b> is used in XML but not defined in DTD."]
          summary := "Validation Failed. Found 1 structural error(s)."
          time := "" } := by
  intro root run
  exact ⟨rfl, by decide, by decide +kernel⟩

end Run

end DtdConformance
