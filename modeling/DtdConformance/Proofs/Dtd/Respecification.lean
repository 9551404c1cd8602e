import DtdConformance.Proofs.Dtd.Redeclaration

/-! # A declaration written anew

One declaration of a written text gets another content model that goes over as many lines as the old
one. Every other declaration stays on its line, so the tables of the two texts bind every other name
to the same definition. This does not depend on whether either content model has a meaning.
-/
namespace DtdConformance.Dtd
set_option autoImplicit false

open Text

structure WrittenDeclaration.Respecified (old new : WrittenDeclaration) : Prop where
  gap : new.gap = old.gap
  name : new.name = old.name
  space : new.space = old.space
  feeds : new.spec.count '\n' = old.spec.count '\n'

theorem WrittenDeclaration.Respecified.count_chars {old new : WrittenDeclaration}
    (h : old.Respecified new) : new.chars.count '\n' = old.chars.count '\n' := by
  simp only [WrittenDeclaration.chars, List.count_append, h.gap, h.name, h.space, h.feeds]

/-- A written text without one of its declarations, which stands between the parts in front and the
filling behind it. -/
structure Surroundings where
  opening : Filling
  front : List (Part × Filling)
  filling : Filling
  back : List (Part × Filling)

def Surroundings.around (surroundings : Surroundings) (written : WrittenDeclaration) : Source where
  opening := surroundings.opening
  parts := surroundings.front ++ (.declaration written, surroundings.filling) :: surroundings.back

/-! ## Definitions in the order of their declarations -/

def definitionsIn (before : List Char) (parts : List (Part × Filling)) : List Definition :=
  (declaredIn before parts).map fun entry => (definitionOf entry).1

def Source.definitions (source : Source) : List Definition :=
  definitionsIn source.opening.chars source.parts

theorem name_definitionOf (entry : List Char × WrittenDeclaration) :
    (definitionOf entry).1.name = nameOf entry := name_define ..

/-- Of the text before a declaration only the lines count. -/
theorem definitionOf_congr {before other : List Char} (h : before.count '\n' = other.count '\n')
    (written : WrittenDeclaration) : definitionOf (before, written) = definitionOf (other, written) := by
  simp only [definitionOf, nameOf, h]

theorem declaredIn_append (before : List Char) (front back : List (Part × Filling)) :
    declaredIn before (front ++ back) =
      declaredIn before front ++ declaredIn (before ++ charsOfParts front) back := by
  induction front generalizing before with
  | nil =>
    have hNone : charsOfParts [] = [] := rfl
    rw [hNone, List.append_nil]
    rfl
  | cons part front ih =>
    obtain ⟨part, filling⟩ := part
    have hChars : before ++ charsOfParts ((part, filling) :: front) =
        before ++ part.chars ++ filling.chars ++ charsOfParts front := by
      rw [charsOfParts_cons]
      simp only [List.append_assoc]
    rw [hChars]
    cases part with
    | comment remark => exact ih _
    | declaration written => exact congrArg (List.cons (before, written)) (ih _)

theorem definitionsIn_congr {before other : List Char} (h : before.count '\n' = other.count '\n')
    (parts : List (Part × Filling)) : definitionsIn before parts = definitionsIn other parts := by
  induction parts generalizing before other with
  | nil => rfl
  | cons part parts ih =>
    obtain ⟨part, filling⟩ := part
    have hNext : (before ++ part.chars ++ filling.chars).count '\n' =
        (other ++ part.chars ++ filling.chars).count '\n' := by
      simp only [List.count_append, h]
    cases part with
    | comment remark => exact ih hNext
    | declaration written =>
      have hHere := congrArg Prod.fst (definitionOf_congr h written)
      exact congrArg₂ List.cons hHere (ih hNext)

namespace Surroundings

variable (surroundings : Surroundings) {old new : WrittenDeclaration}

def before : List Char := surroundings.opening.chars ++ charsOfParts surroundings.front

theorem definitions_around (written : WrittenDeclaration) :
    (surroundings.around written).definitions =
      definitionsIn surroundings.opening.chars surroundings.front ++
        (definitionOf (surroundings.before, written)).1 ::
          definitionsIn (surroundings.before ++ written.chars ++ surroundings.filling.chars)
            surroundings.back := by
  simp only [Source.definitions, definitionsIn, around, declaredIn_append, List.map_append]
  rfl

theorem definitions_behind (h : old.Respecified new) :
    definitionsIn (surroundings.before ++ new.chars ++ surroundings.filling.chars)
        surroundings.back =
      definitionsIn (surroundings.before ++ old.chars ++ surroundings.filling.chars)
        surroundings.back := by
  apply definitionsIn_congr
  simp only [List.count_append, h.count_chars]

theorem name_definitionOf_before (h : old.Respecified new) :
    (definitionOf (surroundings.before, new)).1.name =
      (definitionOf (surroundings.before, old)).1.name := by
  rw [name_definitionOf, name_definitionOf, nameOf, nameOf, h.name]

theorem names_definitions_around (h : old.Respecified new) :
    (surroundings.around new).definitions.map Definition.name =
      (surroundings.around old).definitions.map Definition.name := by
  rw [definitions_around, definitions_around, surroundings.definitions_behind h]
  simp only [List.map_append, List.map_cons, surroundings.name_definitionOf_before h]

theorem filter_definitions_around (h : old.Respecified new) {name : String}
    (hName : name ≠ String.ofList old.name) :
    ((surroundings.around new).definitions.filter fun definition => definition.name = name) =
      (surroundings.around old).definitions.filter fun definition => definition.name = name := by
  have hOld : (definitionOf (surroundings.before, old)).1.name ≠ name := by
    rw [name_definitionOf]
    exact hName.symm
  have hNew : (definitionOf (surroundings.before, new)).1.name ≠ name := by
    rw [surroundings.name_definitionOf_before h]
    exact hOld
  rw [definitions_around, definitions_around, surroundings.definitions_behind h,
    List.filter_append, List.filter_append, List.filter_cons_of_neg (by simpa using hNew),
    List.filter_cons_of_neg (by simpa using hOld)]

end Surroundings

/-! ## The tables -/

theorem exists_compile_of_definitions {source : Source} (h : source.definitions ≠ []) :
    ∃ found, compile source.chars (.ofText source.chars) = .ok found ∧
      found.table.names = (source.definitions.map Definition.name).eraseDups ∧
      ∀ name, found.table.find? name =
        (source.definitions.filter fun definition => definition.name = name).getLast? := by
  have hDeclarations := source.declarations_chars
  have hSome : declarations source.chars ≠ [] := by
    intro hNone
    rw [hNone] at hDeclarations
    apply h
    rw [Source.definitions, definitionsIn, List.map_eq_nil_iff]
    exact List.map_eq_nil_iff.mp hDeclarations.symm
  obtain ⟨log, hCompile⟩ := exists_compile_eq_after hSome (.ofText source.chars)
  rw [hDeclarations] at hCompile
  refine ⟨_, hCompile, ?_, fun name => ?_⟩
  · refine (Compilation.names_after _ _).trans (congrArg List.eraseDups ?_)
    rw [Source.definitions, definitionsIn, List.map_map, List.map_map]
    exact List.map_congr_left fun entry _ => (name_definitionOf entry).symm
  · refine (find?_after_declared source name).trans ?_
    rw [Source.definitions, definitionsIn, List.filter_map, List.getLast?_map]
    simp only [Function.comp_def, name_definitionOf]
    rfl

theorem definitions_around_ne_nil (surroundings : Surroundings) (written : WrittenDeclaration) :
    (surroundings.around written).definitions ≠ [] := by
  rw [surroundings.definitions_around]
  exact List.append_ne_nil_of_right_ne_nil _ (List.cons_ne_nil _ _)

/-- Both texts have a table, whatever the content models are. -/
theorem exists_compile_around (surroundings : Surroundings) {old new : WrittenDeclaration}
    (h : old.Respecified new) :
    let text (written : WrittenDeclaration) := (surroundings.around written).chars
    ∃ found other, compile (text old) (.ofText (text old)) = .ok found ∧
      compile (text new) (.ofText (text new)) = .ok other ∧
      other.table.names = found.table.names ∧
      ∀ name ≠ String.ofList old.name, other.table.find? name = found.table.find? name := by
  intro text
  obtain ⟨found, hFound, hNames, hFind⟩ :=
    exists_compile_of_definitions (definitions_around_ne_nil surroundings old)
  obtain ⟨other, hOther, hOtherNames, hOtherFind⟩ :=
    exists_compile_of_definitions (definitions_around_ne_nil surroundings new)
  refine ⟨found, other, hFound, hOther, ?_, fun name hName => ?_⟩
  · rw [hOtherNames, hNames, surroundings.names_definitions_around h]
  · rw [hOtherFind, hFind, surroundings.filter_definitions_around h hName]

end DtdConformance.Dtd
