import DtdConformance.Conformance.Finding
import DtdConformance.Proofs.ContentModel.Recognition
import DtdConformance.Proofs.Document.Label
import DtdConformance.Proofs.Dtd.Compilation

/-! # Conforming trees

When an element fits its definition, and when a whole tree conforms to a table. Neither speaks of
labels, automata or the order in which elements are looked at. A tree has no findings exactly when
it conforms.
-/
namespace DtdConformance.Conformance
set_option autoImplicit false

open Document Dtd

variable {α β : Type}

/-- The element fits the definition, whatever its children are like inside. The content model of a
definition counts as it is written. -/
def Fits (definition : Definition) (e : Element α) : Prop :=
  match definition.rule with
  | .empty => e.children = [] ∧ ∀ c ∈ e.directText, Text.isBlank c = true
  | .any => True
  | .text => e.children = []
  | .mixed allowed => ∀ child ∈ e.children, child.name ∈ allowed
  | .children _ => (∀ c ∈ e.directText, Text.isBlank c = true) ∧
      ContentModel.Permits definition.spec.toList (e.children.map Element.name)

/-- Every element of the tree is declared and fits its definition. -/
def Conforms (table : Table) (root : Element α) : Prop :=
  ∀ e ∈ root.preorder, ∃ definition, table.find? e.name = some definition ∧ Fits definition e

/-! ## Labels do not count -/

theorem fits_map_iff (f : α → β) (definition : Definition) (e : Element α) :
    Fits definition (e.map f) ↔ Fits definition e := by
  have hNames : (e.children.map (Element.map f)).map Element.name =
      e.children.map Element.name := by
    rw [List.map_map]
    rfl
  unfold Fits
  rw [Element.children_map, Element.directText_map, hNames]
  cases definition.rule with
  | mixed allowed =>
    dsimp only
    rw [List.forall_mem_map]
    rfl
  | _ => simp

theorem conforms_map_iff (f : α → β) (table : Table) (root : Element α) :
    Conforms table (root.map f) ↔ Conforms table root := by
  unfold Conforms
  rw [Element.preorder_map, List.forall_mem_map]
  refine forall_congr' fun e => imp_congr_right fun _ => exists_congr fun definition => ?_
  rw [fits_map_iff]
  rfl

theorem conforms_congr {table : Table} {root : Element α} {other : Element β}
    (h : root.map (fun _ => ()) = other.map (fun _ => ())) :
    Conforms table root ↔ Conforms table other := by
  rw [← conforms_map_iff (fun _ => ()) table root, h, conforms_map_iff]

/-! ## Findings -/

theorem problems_eq_nil_iff {definition : Definition} (hFaithful : definition.Faithful)
    (previewLength : Int) (e : Element α) :
    problems previewLength definition e = [] ↔ Fits definition e := by
  unfold problems Fits
  cases hRule : definition.rule with
  | empty =>
    by_cases hChildren : e.children = []
    · cases hText : Text.hasText e.directText with
      | false => simpa [hChildren] using (Text.hasText_eq_false_iff _).mp hText
      | true =>
        have hBlank : ¬ ∀ c ∈ e.directText, Text.isBlank c = true := by
          rw [← Text.hasText_eq_false_iff, hText]
          exact Bool.noConfusion
        simpa [hChildren] using hBlank
    · simp [hChildren]
  | any => simp
  | text => by_cases hChildren : e.children = [] <;> simp [hChildren]
  | mixed allowed =>
    simp [List.filter_eq_nil_iff, Definition.allowsMixedChild, Definition.allowed, hRule]
  | children automaton =>
    have hAccepts := ContentModel.accepts_iff_permits_of_compile (hFaithful automaton hRule)
      (e.children.map Element.name)
    dsimp only
    rw [List.append_eq_nil_iff, ← Text.trim_eq_nil_iff, ← hAccepts]
    by_cases hText : Text.trim e.directText = []
    · cases automaton.accepts (e.children.map Element.name) <;> simp [hText]
    · simp [hText]

theorem findingsAt_eq_nil_iff {table : Table} (hFaithful : table.Faithful) (previewLength : Int)
    (e : Element (Option Nat)) : findingsAt table previewLength e = [] ↔
      ∃ definition, table.find? e.name = some definition ∧ Fits definition e := by
  unfold findingsAt
  cases hFind : table.find? e.name with
  | none => simp
  | some definition =>
    have hDefinition := hFaithful definition (Table.mem_definitions_of_find? hFind)
    simp [problems_eq_nil_iff hDefinition]

theorem conforms_iff_children (table : Table) (e : Element α) : Conforms table e ↔
    (∃ definition, table.find? e.name = some definition ∧ Fits definition e) ∧
      ∀ child ∈ e.children, Conforms table child := by
  unfold Conforms
  rw [Element.preorder_eq_cons_flatMap, List.forall_mem_cons]
  simp only [List.mem_flatMap]
  constructor
  · rintro ⟨hHere, hBelow⟩
    exact ⟨hHere, fun child hChild f hMem => hBelow f ⟨child, hChild, hMem⟩⟩
  · rintro ⟨hHere, hBelow⟩
    exact ⟨hHere, fun f ⟨child, hChild, hMem⟩ => hBelow child hChild f hMem⟩

/-- Nothing is found in the pending trees exactly when all of them conform. An undeclared element
is itself a finding, so nothing is lost below it. -/
theorem walk_eq_nil_iff {table : Table} (hFaithful : table.Faithful) (previewLength : Int)
    (pending : List (Element (Option Nat))) :
    walk table previewLength pending = [] ↔ ∀ e ∈ pending, Conforms table e := by
  fun_induction walk table previewLength pending with
  | case1 => simp
  | case2 e pending ihDeclared _ =>
    rw [List.forall_mem_cons, List.append_eq_nil_iff, findingsAt_eq_nil_iff hFaithful,
      conforms_iff_children, Table.contains_eq_isSome_find?]
    constructor
    · rintro ⟨⟨definition, hFind, hFits⟩, hRest⟩
      rw [hFind, Option.isSome_some, if_pos rfl, ihDeclared, List.forall_mem_append] at hRest
      exact ⟨⟨⟨definition, hFind, hFits⟩, hRest.1⟩, hRest.2⟩
    · rintro ⟨⟨⟨definition, hFind, hFits⟩, hChildren⟩, hPending⟩
      refine ⟨⟨definition, hFind, hFits⟩, ?_⟩
      rw [hFind, Option.isSome_some, if_pos rfl, ihDeclared, List.forall_mem_append]
      exact ⟨hChildren, hPending⟩

theorem findings_eq_nil_iff {table : Table} (hFaithful : table.Faithful) (previewLength : Int)
    (root : Element (Option Nat)) :
    findings table previewLength root = [] ↔ Conforms table root := by
  rw [findings, walk_eq_nil_iff hFaithful]
  simp

end DtdConformance.Conformance
