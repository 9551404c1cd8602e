import DtdConformance.Proofs.Document.Lineage
import DtdConformance.Proofs.Dtd.Compilation
import DtdConformance.Run.Result

/-! # The order of findings

The findings of a tree by recursion on the tree. The loop over pending trees gives the same list,
so the findings come in document order, each element that is reached is looked at once, and what
stands inside an undeclared element counts for nothing.
-/
namespace DtdConformance.Conformance
set_option autoImplicit false

open Document Dtd

theorem element_and_line_of_mem_findingsAt {table : Table} {previewLength : Int}
    {e : Element (Option Nat)} {finding : Finding} (h : finding ∈ findingsAt table previewLength e) :
    finding.element = e.name ∧ finding.line = e.label := by
  unfold findingsAt at h
  split at h
  · cases List.mem_singleton.mp h
    exact ⟨rfl, rfl⟩
  · obtain ⟨problem, _, rfl⟩ := List.mem_map.mp h
    exact ⟨rfl, rfl⟩

theorem declaredAt_of_mem_findingsAt {table : Table} {previewLength : Int}
    {e : Element (Option Nat)} {finding : Finding} (h : finding ∈ findingsAt table previewLength e) :
    finding.declaredAt = (table.find? finding.element).map Definition.line := by
  rw [(element_and_line_of_mem_findingsAt h).1]
  unfold findingsAt at h
  split at h
  · next hNone =>
    cases List.mem_singleton.mp h
    rw [hNone]
    rfl
  · next definition hSome =>
    obtain ⟨problem, _, rfl⟩ := List.mem_map.mp h
    rw [hSome]
    rfl

section

variable (table : Table) (previewLength : Int)

def diagnosesWithin : Content (Option Nat) → List Finding
  | .done => []
  | .text _ rest => diagnosesWithin rest
  | .aside _ rest => diagnosesWithin rest
  | .element name line inner rest =>
    findingsAt table previewLength ⟨name, line, inner⟩ ++
      ((if table.contains name then diagnosesWithin inner else []) ++ diagnosesWithin rest)

/-- The findings of an element itself, followed by those of its content if it is declared. -/
def diagnoses (e : Element (Option Nat)) : List Finding :=
  findingsAt table previewLength e ++
    if table.contains e.name then diagnosesWithin table previewLength e.content else []

theorem diagnosesWithin_eq_flatMap (content : Content (Option Nat)) :
    diagnosesWithin table previewLength content =
      content.children.flatMap (diagnoses table previewLength) := by
  induction content with
  | done => rfl
  | text _ _ ih => exact ih
  | aside _ _ ih => exact ih
  | element name line inner rest _ ihRest =>
    rw [diagnosesWithin, Content.children, List.flatMap_cons, ihRest, diagnoses, List.append_assoc]

theorem diagnoses_eq (e : Element (Option Nat)) :
    diagnoses table previewLength e = findingsAt table previewLength e ++
      if table.contains e.name then e.children.flatMap (diagnoses table previewLength) else [] := by
  rw [diagnoses, diagnosesWithin_eq_flatMap]
  rfl

/-- The pending trees contribute one after another. The children of a declared element stand before
the other pending trees, so they are finished before these begin. -/
theorem walk_eq_flatMap (pending : List (Element (Option Nat))) :
    walk table previewLength pending = pending.flatMap (diagnoses table previewLength) := by
  fun_induction walk table previewLength pending with
  | case1 => rfl
  | case2 e pending ihDeclared ihUndeclared =>
    rw [List.flatMap_cons, diagnoses_eq, List.append_assoc]
    split
    · next hDeclared => rw [ihDeclared, List.flatMap_append]
    · next hUndeclared => rw [ihUndeclared, List.nil_append]

theorem findings_eq_diagnoses (root : Element (Option Nat)) :
    findings table previewLength root = diagnoses table previewLength root := by
  rw [findings, walk_eq_flatMap, List.flatMap_cons, List.flatMap_nil, List.append_nil]

/-! ## The elements that are looked at -/

theorem diagnosesWithin_eq_flatMap_reached (content : Content (Option Nat)) {around : List String}
    (hAround : around.all table.contains = true) :
    diagnosesWithin table previewLength content =
      (content.reached table.contains around).flatMap (findingsAt table previewLength) := by
  induction content generalizing around with
  | done => rfl
  | text _ _ ih => exact ih hAround
  | aside _ _ ih => exact ih hAround
  | element name line inner rest ihInner ihRest =>
    rw [Content.reached_element hAround, diagnosesWithin, List.flatMap_cons, List.flatMap_append,
      ihRest hAround]
    split
    · next hDeclared => rw [ihInner (by rw [List.all_cons, hDeclared, hAround]; rfl)]
    · rfl

/-- One look at every element that is reached, in document order. -/
theorem diagnoses_eq_flatMap_reached (root : Element (Option Nat)) :
    diagnoses table previewLength root =
      (root.reached table.contains).flatMap (findingsAt table previewLength) := by
  rw [diagnoses, Element.reached_eq_cons, List.flatMap_cons]
  split
  · next hDeclared =>
    have hAround : [root.name].all table.contains = true := by
      rw [List.all_cons, hDeclared]
      rfl
    rw [diagnosesWithin_eq_flatMap_reached table previewLength root.content hAround]
  · rfl

theorem exists_element_of_mem_findings {finding : Finding} {root : Element (Option Nat)}
    (h : finding ∈ findings table previewLength root) :
    ∃ e ∈ root.reached table.contains, finding ∈ findingsAt table previewLength e := by
  rw [findings_eq_diagnoses, diagnoses_eq_flatMap_reached] at h
  exact List.mem_flatMap.mp h

/-! ## The elements that are not -/

section

variable {α β : Type} (definition : Definition) {e : Element α} {other : Element β}

theorem isEmpty_children_congr
    (hNames : e.children.map Element.name = other.children.map Element.name) :
    e.children.isEmpty = other.children.isEmpty := by
  rw [← List.isEmpty_map (f := Element.name), hNames, List.isEmpty_map]

theorem unexpectedChildren_congr (allowed : List String)
    (hNames : e.children.map Element.name = other.children.map Element.name) :
    ((e.children.filter fun child => !definition.allowsMixedChild child.name).map fun child =>
        Problem.unexpectedChild child.name allowed) =
      (other.children.filter fun child => !definition.allowsMixedChild child.name).map
        fun child => Problem.unexpectedChild child.name allowed := by
  have hMap := congrArg (fun names =>
    (names.filter fun name => !definition.allowsMixedChild name).map
      fun name => Problem.unexpectedChild name allowed) hNames
  simp only [List.filter_map, List.map_map] at hMap
  exact hMap

theorem problems_congr (hNames : e.children.map Element.name = other.children.map Element.name)
    (hText : e.directText = other.directText) :
    problems previewLength definition e = problems previewLength definition other := by
  unfold problems
  cases definition.rule with
  | mixed allowed => exact unexpectedChildren_congr definition allowed hNames
  | _ => simp only [isEmpty_children_congr hNames, hNames, hText]

end

theorem findingsAt_prune (name : String) (line : Option Nat) (inner : Content (Option Nat)) :
    findingsAt table previewLength
        ⟨name, line, if table.contains name then inner.prune table.contains else .done⟩ =
      findingsAt table previewLength ⟨name, line, inner⟩ := by
  unfold findingsAt
  rw [Table.contains_eq_isSome_find?]
  cases table.find? name with
  | none => rfl
  | some definition =>
    have hProblems : problems previewLength definition
        (⟨name, line, inner.prune table.contains⟩ : Element (Option Nat)) =
          problems previewLength definition (⟨name, line, inner⟩ : Element (Option Nat)) :=
      problems_congr previewLength definition (Content.names_children_prune ..)
        (Content.directText_prune ..)
    simp only [Option.isSome_some, if_true, hProblems]

theorem diagnosesWithin_prune (content : Content (Option Nat)) :
    diagnosesWithin table previewLength (content.prune table.contains) =
      diagnosesWithin table previewLength content := by
  induction content with
  | done => rfl
  | text _ _ ih => exact ih
  | aside _ _ ih => exact ih
  | element name line inner rest ihInner ihRest =>
    rw [Content.prune, diagnosesWithin, diagnosesWithin, findingsAt_prune, ihRest]
    split
    · rw [ihInner]
    · rfl

theorem diagnoses_prune (root : Element (Option Nat)) :
    diagnoses table previewLength (root.prune table.contains) =
      diagnoses table previewLength root := by
  rw [diagnoses, diagnoses, Element.prune, findingsAt_prune]
  split
  · rw [diagnosesWithin_prune]
  · rfl

end

/-- The findings of a tree are given by recursion, in document order and with one look at every
element that has no undeclared element around it. Their texts are the errors that are told. Trees
that differ inside undeclared elements alone have the same findings. -/
theorem findings_by_recursion {α : Type} (table : Table) (previewLength : Int)
    (root other : Element α) (lineOf : α → Option Nat)
    (hOther : other.prune table.contains = root.prune table.contains) :
    let found := findings table previewLength (root.map lineOf)
    found = diagnoses table previewLength (root.map lineOf) ∧
      (∀ e, diagnoses table previewLength e = findingsAt table previewLength e ++
        if table.contains e.name then e.children.flatMap (diagnoses table previewLength)
        else []) ∧
      (Run.Ending.checked found).errors =
        (diagnoses table previewLength (root.map lineOf)).map Finding.render ∧
      found = (root.lineage.filter fun entry => entry.1.all table.contains).flatMap
        (fun entry => findingsAt table previewLength (entry.2.map lineOf)) ∧
      root.lineage.map Prod.snd = root.preorder ∧
      findings table previewLength (other.map lineOf) = found := by
  intro found
  have hFound : found = diagnoses table previewLength (root.map lineOf) :=
    findings_eq_diagnoses table previewLength _
  refine ⟨hFound, diagnoses_eq table previewLength, ?_, ?_, root.map_snd_lineage, ?_⟩
  · rw [← hFound]
    rfl
  · rw [hFound, diagnoses_eq_flatMap_reached, Element.reached_map, List.flatMap_map,
      Element.reached, List.flatMap_map]
  · rw [hFound, findings_eq_diagnoses, ← diagnoses_prune, Element.prune_map, hOther,
      ← Element.prune_map, diagnoses_prune]

def parcelTable : Table := ⟨[⟨"parcel", .any, "ANY", 1⟩]⟩

/-- A parcel with an undeclared box, a comment and another parcel in it. -/
def parcel (boxed : Content Nat) : Element Nat :=
  ⟨"parcel", 1, .element "box" 2 boxed <| .aside .comment <| .element "parcel" 5 .done .done⟩

/-- What is in the box does not show. -/
theorem findings_by_recursion_of_parcels :
    let full := parcel (.element "lid" 3 (.text ['x'] .done) .done)
    let empty := parcel .done
    full.prune parcelTable.contains = empty.prune parcelTable.contains ∧
      findings parcelTable 20 (full.map some) = findings parcelTable 20 (empty.map some) ∧
      findings parcelTable 20 (empty.map some) = [⟨"box", some 2, none, .undeclared⟩] := by
  intro full empty
  have hPrune : full.prune parcelTable.contains = empty.prune parcelTable.contains := by decide
  obtain ⟨hFound, _, _, _, _, hOther⟩ :=
    findings_by_recursion parcelTable 20 empty full some hPrune
  exact ⟨hPrune, hOther, hFound.trans (by decide)⟩

end DtdConformance.Conformance
