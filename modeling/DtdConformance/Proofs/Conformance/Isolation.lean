import DtdConformance.Proofs.Conformance.Message
import DtdConformance.Proofs.Conformance.Traversal
import DtdConformance.Proofs.Dtd.Respecification

/-! # One element at fault

A content model concerns the elements of its own name. When one declaration of a written text is
written anew, the findings about all other elements stay as they are, in the same order, in every
tree and with every assignment of lines.
-/
namespace DtdConformance.Conformance
set_option autoImplicit false

open Document Dtd

/-! ## Tables that differ at one name -/

section

variable {table other : Table} {name : String} (previewLength : Int)

theorem filter_findingsAt (hFind : ∀ another ≠ name, other.find? another = table.find? another)
    (e : Element (Option Nat)) :
    (findingsAt other previewLength e).filter (fun finding => finding.element ≠ name) =
      (findingsAt table previewLength e).filter fun finding => finding.element ≠ name := by
  by_cases hName : e.name = name
  · have hNone (table : Table) :
        (findingsAt table previewLength e).filter (fun finding => finding.element ≠ name) = [] := by
      rw [List.filter_eq_nil_iff]
      intro finding hFinding
      simp [(element_and_line_of_mem_findingsAt hFinding).1, hName]
    rw [hNone, hNone]
  · unfold findingsAt
    rw [hFind e.name hName]

/-- Both tables have the same names, so the same elements are reached. -/
theorem filter_findings (hNames : other.names = table.names)
    (hFind : ∀ another ≠ name, other.find? another = table.find? another)
    (root : Element (Option Nat)) :
    (findings other previewLength root).filter (fun finding => finding.element ≠ name) =
      (findings table previewLength root).filter fun finding => finding.element ≠ name := by
  have hContains : other.contains = table.contains := by
    funext another
    rw [Bool.eq_iff_iff, Table.contains_eq_true_iff, Table.contains_eq_true_iff, hNames]
  simp only [findings_eq_diagnoses, diagnoses_eq_flatMap_reached, List.filter_flatMap, hContains]
  apply List.flatMap_congr
  intro e _
  exact filter_findingsAt previewLength hFind e

end

theorem filter_diagnostics {name : String} {found others : List Finding}
    (h : others.filter (fun finding => finding.element ≠ name) =
      found.filter fun finding => finding.element ≠ name) :
    (others.map Finding.diagnostic).filter (fun diagnostic => ¬ diagnostic.TellsOf name) =
      (found.map Finding.diagnostic).filter fun diagnostic => ¬ diagnostic.TellsOf name := by
  have hTwice (found : List Finding) :
      (found.filter fun finding => ¬ finding.diagnostic.TellsOf name) =
        (found.filter fun finding => finding.element ≠ name).filter
          fun finding => ¬ finding.diagnostic.TellsOf name := by
    rw [List.filter_filter]
    apply List.filter_congr
    intro finding _
    have hElement : ¬ finding.diagnostic.TellsOf name → finding.element ≠ name := by
      rintro hNot rfl
      exact hNot (tellsOf_element finding)
    by_cases hTells : finding.diagnostic.TellsOf name
    · simp [hTells]
    · simp [hTells, hElement hTells]
  have hFound := hTwice found
  have hOthers := hTwice others
  rw [h, ← hFound] at hOthers
  rw [List.filter_map, List.filter_map]
  exact congrArg (List.map Finding.diagnostic) hOthers

/-- When one declaration gets another content model on as many lines, both texts have a table,
with the same names, and only the definition of the declared name may differ. In any tree the
findings about other elements are the same, and so are the diagnostics whose messages do not begin
with that name in angle brackets. -/
theorem findings_isolated {α : Type} (surroundings : Surroundings) (old new : WrittenDeclaration)
    (h : old.Respecified new) (previewLength : Int) (root : Element α) (lineOf : α → Option Nat) :
    let text (written : WrittenDeclaration) := (surroundings.around written).chars
    let name := String.ofList old.name
    ∃ found other, compile (text old) (.ofText (text old)) = .ok found ∧
      compile (text new) (.ofText (text new)) = .ok other ∧
      other.table.names = found.table.names ∧
      (∀ another ≠ name, other.table.find? another = found.table.find? another) ∧
      (let told := findings found.table previewLength (root.map lineOf)
      let retold := findings other.table previewLength (root.map lineOf)
      (retold.filter (fun finding => finding.element ≠ name) =
          told.filter fun finding => finding.element ≠ name) ∧
        ((retold.map Finding.diagnostic).filter (fun diagnostic => ¬ diagnostic.TellsOf name) =
          (told.map Finding.diagnostic).filter fun diagnostic => ¬ diagnostic.TellsOf name)) ∧
      ∀ finding : Finding, '>' ∉ finding.element.toList →
        (finding.diagnostic.TellsOf name ↔ finding.element = name) := by
  intro text name
  obtain ⟨found, other, hFound, hOther, hNames, hFind⟩ := exists_compile_around surroundings h
  have hFilter := filter_findings previewLength hNames hFind (root.map lineOf)
  have hName : '>' ∉ name.toList := by
    rw [String.toList_ofList]
    exact Text.not_mem_of_nameChar old.isName.2 (by decide)
  refine ⟨found, other, hFound, hOther, hNames, hFind, ⟨hFilter, filter_diagnostics hFilter⟩, ?_⟩
  intro finding hElement
  exact tellsOf_iff hElement hName

/-- An order declares items between the order itself and its notes. -/
def orderForm : Surroundings where
  opening := ⟨[], by decide, by decide⟩
  front :=
    [(.declaration ⟨[' '], ['o', 'r', 'd', 'e', 'r'], [' '], "(item|note)*".toList, by decide,
      by decide, by decide, by decide +kernel, by decide +kernel, by decide +kernel⟩,
      ⟨['\n'], by decide, by decide⟩)]
  filling := ⟨['\n'], by decide, by decide⟩
  back :=
    [(.declaration ⟨[' '], ['n', 'o', 't', 'e'], [' '], "EMPTY".toList, by decide, by decide,
      by decide, by decide +kernel, by decide +kernel, by decide +kernel⟩,
      ⟨[], by decide, by decide⟩)]

def emptyItem : WrittenDeclaration :=
  ⟨[' '], ['i', 't', 'e', 'm'], [' '], "EMPTY\n".toList, by decide, by decide, by decide,
    by decide +kernel, by decide +kernel, by decide +kernel⟩

def brokenItem : WrittenDeclaration :=
  ⟨[' '], ['i', 't', 'e', 'm'], [' '], "\n((note,".toList, by decide, by decide, by decide,
    by decide +kernel, by decide +kernel, by decide +kernel⟩

def order : Element Nat :=
  ⟨"order", 1, .element "item" 2 (.element "note" 3 (.text ['x'] .done) .done) .done⟩

/-- An item without a meaning may hold anything, and the note in it is still at fault. -/
theorem findings_isolated_of_broken_item :
    let text (written : WrittenDeclaration) := (orderForm.around written).chars
    emptyItem.Respecified brokenItem ∧
      ∃ found other, compile (text emptyItem) (.ofText (text emptyItem)) = .ok found ∧
        compile (text brokenItem) (.ofText (text brokenItem)) = .ok other ∧
        (let told := findings found.table 20 (order.map some)
        let retold := findings other.table 20 (order.map some)
        told.map Finding.element = ["item", "note"] ∧
          retold = [⟨"note", some 3, some 4, .notEmpty⟩] ∧
          (retold.filter (fun finding => finding.element ≠ "item") =
            told.filter fun finding => finding.element ≠ "item")) := by
  intro text
  have hItem : emptyItem.Respecified brokenItem := ⟨rfl, rfl, rfl, by decide +kernel⟩
  obtain ⟨found, other, hFound, hOther, _, _, ⟨hFilter, _⟩, _⟩ :=
    findings_isolated orderForm emptyItem brokenItem hItem 20 order some
  have hTold : (compile (text emptyItem) (.ofText (text emptyItem))).map (fun found =>
      (findings found.table 20 (order.map some)).map Finding.element) = .ok ["item", "note"] := by
    decide +kernel
  have hRetold : (compile (text brokenItem) (.ofText (text brokenItem))).map (fun found =>
      findings found.table 20 (order.map some)) = .ok [⟨"note", some 3, some 4, .notEmpty⟩] := by
    decide +kernel
  rw [hFound] at hTold
  rw [hOther] at hRetold
  exact ⟨hItem, found, other, hFound, hOther, Except.ok.inj hTold, Except.ok.inj hRetold, hFilter⟩

end DtdConformance.Conformance
