import Mathlib.Data.List.DropRight
import DtdConformance.Proofs.Dtd.Presence

/-! # Compiled tables

A text has a table exactly when a declaration stands in it outside comments. Every definition of
the table that holds an automaton holds the automaton of its own content model.
-/
namespace DtdConformance.Dtd
set_option autoImplicit false

open Text

/-- The automaton of a definition is the one of the content model that the definition shows. -/
def Definition.Faithful (definition : Definition) : Prop :=
  ∀ automaton, definition.rule = .children automaton →
    ContentModel.compile definition.spec.toList = .ok automaton

theorem compile_of_ruleOf_eq_children {bare : List Char} {automaton : ContentModel.Automaton}
    (h : ruleOf bare = .ok (.children automaton)) :
    ContentModel.compile bare = .ok automaton := by
  unfold ruleOf at h
  dsimp only at h
  split at h
  · cases h
  · split at h
    · cases h
    · split at h
      · cases h
      · split at h
        · cases h
        · cases hCompile : ContentModel.compile bare with
          | error fault => simp [hCompile, Except.map] at h
          | ok other =>
            simp only [hCompile, Except.map, Except.ok.injEq, ContentRule.children.injEq] at h
            rw [h]

theorem faithful_define (name : String) (spec : List Char) (line : Int) :
    (define name spec line).1.Faithful := by
  intro automaton hRule
  unfold define at hRule ⊢
  dsimp only at hRule ⊢
  cases hBare : ruleOf (bareSpec spec) with
  | error fault => simp [hBare] at hRule
  | ok rule =>
    simp only [hBare] at hRule ⊢
    subst hRule
    rw [String.toList_ofList]
    exact compile_of_ruleOf_eq_children hBare

namespace Table

theorem contains_eq_isSome_find? (table : Table) (name : String) :
    table.contains name = (table.find? name).isSome := by
  rw [Bool.eq_iff_iff, contains, find?, List.find?_isSome, List.any_eq_true]

theorem mem_definitions_of_find? {table : Table} {name : String} {definition : Definition}
    (h : table.find? name = some definition) : definition ∈ table.definitions :=
  List.mem_of_find?_eq_some h

theorem mem_insert {table : Table} {definition other : Definition}
    (h : other ∈ (table.insert definition).definitions) :
    other = definition ∨ other ∈ table.definitions := by
  unfold insert at h
  split at h
  · obtain ⟨old, hOld, rfl⟩ := List.mem_map.mp h
    split
    · exact Or.inl rfl
    · exact Or.inr hOld
  · rcases List.mem_append.mp h with hOld | hNew
    · exact Or.inr hOld
    · exact Or.inl (List.mem_singleton.mp hNew)

theorem definitions_insert_ne_nil (table : Table) (definition : Definition) :
    (table.insert definition).definitions ≠ [] := by
  intro hNil
  have hFind := table.find?_insert_self definition
  simp [find?, hNil] at hFind

def Faithful (table : Table) : Prop := ∀ definition ∈ table.definitions, definition.Faithful

end Table

/-! ## Adding declarations one by one -/

namespace Declaration

def key (declaration : Declaration) : String := String.ofList declaration.name

def defined (index : LineIndex) (declaration : Declaration) :
    Definition × Option ContentModel.Fault :=
  define declaration.key declaration.spec (index.lineAt declaration.offset)

end Declaration

namespace Compilation

/-- What has been found when the given declarations have been read. -/
def after (index : LineIndex) (declarations : List Declaration) : Compilation :=
  declarations.foldl (add index) ⟨.empty, [], []⟩

theorem after_append (index : LineIndex) (declarations : List Declaration)
    (declaration : Declaration) : after index (declarations ++ [declaration]) =
      (after index declarations).add index declaration := by
  rw [after, List.foldl_append]
  rfl

theorem table_after_append (index : LineIndex) (declarations : List Declaration)
    (declaration : Declaration) : (after index (declarations ++ [declaration])).table =
      (after index declarations).table.insert (declaration.defined index).1 := by
  rw [after_append]
  rfl

/-- Every definition of a table belongs to a declaration. -/
theorem exists_declaration_of_mem_after {index : LineIndex} {declarations : List Declaration}
    {definition : Definition} (h : definition ∈ (after index declarations).table.definitions) :
    ∃ declaration ∈ declarations, definition = (declaration.defined index).1 := by
  induction declarations using List.reverseRecOn with
  | nil => cases h
  | append_singleton declarations declaration ih =>
    rw [table_after_append] at h
    rcases Table.mem_insert h with hHere | hBefore
    · exact ⟨declaration, by simp, hHere⟩
    · obtain ⟨earlier, hEarlier, hDefined⟩ := ih hBefore
      exact ⟨earlier, List.mem_append_left _ hEarlier, hDefined⟩

theorem definitions_after_ne_nil (index : LineIndex) {declarations : List Declaration}
    (h : declarations ≠ []) : (after index declarations).table.definitions ≠ [] := by
  obtain ⟨before, last, rfl⟩ := (List.eq_nil_or_concat' declarations).resolve_left h
  rw [table_after_append]
  exact Table.definitions_insert_ne_nil _ _

end Compilation

/-! ## Compiling a text -/

theorem compile_of_declarations_eq_nil {cs : List Char} (h : declarations cs = [])
    (index : LineIndex) : compile cs index = .error .noDeclarations := by
  rw [compile, h]
  rfl

theorem exists_compile_eq_after {cs : List Char} (h : declarations cs ≠ []) (index : LineIndex) :
    ∃ log, compile cs index = .ok { Compilation.after index (declarations cs) with log } := by
  refine ⟨_, if_neg ?_⟩
  rw [List.isEmpty_iff]
  exact Compilation.definitions_after_ne_nil index h

/-- Apart from the log, what is found is what the declarations leave behind. -/
theorem exists_eq_after_of_compile {cs : List Char} {index : LineIndex} {found : Compilation}
    (h : compile cs index = .ok found) :
    ∃ log, found = { Compilation.after index (declarations cs) with log } := by
  have hSome : declarations cs ≠ [] := by
    intro hNone
    cases h.symm.trans (compile_of_declarations_eq_nil hNone index)
  obtain ⟨log, hCompile⟩ := exists_compile_eq_after hSome index
  exact ⟨log, Except.ok.inj (h.symm.trans hCompile)⟩

theorem exists_declaration_of_compile {cs : List Char} {index : LineIndex} {found : Compilation}
    (h : compile cs index = .ok found) {definition : Definition}
    (hDefinition : definition ∈ found.table.definitions) :
    ∃ declaration ∈ declarations cs, definition = (declaration.defined index).1 := by
  obtain ⟨log, rfl⟩ := exists_eq_after_of_compile h
  exact Compilation.exists_declaration_of_mem_after hDefinition

theorem faithful_of_compile {cs : List Char} {index : LineIndex} {found : Compilation}
    (h : compile cs index = .ok found) : found.table.Faithful := by
  intro definition hDefinition
  obtain ⟨declaration, _, rfl⟩ := exists_declaration_of_compile h hDefinition
  exact faithful_define _ _ _

/-- A text has a table exactly when it holds a declaration outside comments. -/
theorem exists_compile_eq_ok_iff (cs : List Char) (index : LineIndex) :
    (∃ found, compile cs index = .ok found) ↔ HasDeclaration (Markup.maskComments cs) := by
  rw [← declarations_ne_nil_iff]
  constructor
  · rintro ⟨found, hFound⟩ hNone
    cases hFound.symm.trans (compile_of_declarations_eq_nil hNone index)
  · intro hSome
    obtain ⟨log, hCompile⟩ := exists_compile_eq_after hSome index
    exact ⟨_, hCompile⟩

end DtdConformance.Dtd
