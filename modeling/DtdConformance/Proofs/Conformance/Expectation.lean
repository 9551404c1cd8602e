import DtdConformance.Conformance.Problem
import DtdConformance.Proofs.ContentModel.Spelling
import DtdConformance.Proofs.Dtd.Compilation
import DtdConformance.Proofs.Text.Words

/-! # Expected content models

A problem with the order of children shows the content model that was expected. Read again, the
shown text has the automaton that was enforced, and that automaton refuses the children.
-/
namespace DtdConformance.Dtd
set_option autoImplicit false

open Text

namespace Definition

theorem shownSpec_eq (definition : Definition) :
    definition.shownSpec = String.ofList (normalizeBlanks definition.spec.toList) := by
  apply String.toList_injective
  have hSpace : " ".toList = [' '] := String.toList_ofList
  have hWords : (words definition.spec.toList).map (String.toList ∘ String.ofList) =
      words definition.spec.toList := by
    simp [Function.comp_def]
  rw [shownSpec, String.toList_intercalate, List.map_map, hWords, hSpace, intercalate_words,
    String.toList_ofList]

/-- What is shown has the same automaton as what was written. -/
theorem Faithful.exists_compile_shownSpec {definition : Definition} (h : definition.Faithful)
    {automaton : ContentModel.Automaton} (hRule : definition.rule = .children automaton) :
    ContentModel.compile definition.shownSpec.toList =
      .ok { automaton with spec := definition.shownSpec } := by
  have hBlanks :
      removeBlanks definition.shownSpec.toList = removeBlanks definition.spec.toList := by
    rw [shownSpec_eq, String.toList_ofList, removeBlanks_normalizeBlanks]
  rw [ContentModel.compile_respelled hBlanks, h automaton hRule, String.ofList_toList]
  rfl

end Definition

end DtdConformance.Dtd

namespace DtdConformance.Conformance
set_option autoImplicit false

open Document Dtd

variable {α : Type}

theorem eq_of_unfitChildren_mem_problems {previewLength : Int} {definition : Definition}
    {e : Element α} {names : List String} {expected : String}
    (h : Problem.unfitChildren names expected ∈ problems previewLength definition e) :
    names = e.children.map Element.name ∧ expected = definition.shownSpec ∧
      ∃ automaton, definition.rule = .children automaton ∧
        automaton.accepts (e.children.map Element.name) = false := by
  unfold problems at h
  split at h
  · split at h <;> simp at h
  · cases h
  · split at h <;> simp at h
  · simp at h
  · next automaton hRule =>
    rcases List.mem_append.mp h with hText | hOrder
    · split at hText <;> simp at hText
    · split at hOrder
      · cases hOrder
      · next hRefused =>
        cases List.mem_singleton.mp hOrder
        exact ⟨rfl, rfl, automaton, hRule, by simpa using hRefused⟩

theorem message_unfitChildren (name : String) (found : List String) (expected : String) :
    ∃ opening, ((Problem.unfitChildren found expected).message name).toList =
      opening ++ ("Expected DTD sequence: ".toList ++ expected.toList) := by
  let opening := s!"Element <{name}> has invalid content structure.\n" ++
    s!"Found children: [{shownChildren found}]\n"
  refine ⟨opening.toList, ?_⟩
  calc ((Problem.unfitChildren found expected).message name).toList
      = (opening ++ s!"Expected DTD sequence: {expected}").toList := rfl
    _ = opening.toList ++ (s!"Expected DTD sequence: {expected}").toList := String.toList_append
    _ = opening.toList ++ ("Expected DTD sequence: ".toList ++ expected.toList) :=
        congrArg _ String.toList_append

/-- The content model that a problem shows at the end of its message is one, whatever the table was
compiled from. Its automaton is the enforced one, and it refuses the children of the element. In
general blanks do not count in a content model, and a definition shows its own with the runs of
blanks collapsed. -/
theorem expectation_certified :
    (∀ (cs : List Char) (index : Text.LineIndex) (found : Compilation),
      compile cs index = .ok found → ∀ definition ∈ found.table.definitions,
      ∀ (α : Type) (e : Element α) (previewLength : Int) (names : List String) (expected : String),
      .unfitChildren names expected ∈ problems previewLength definition e →
        (∃ opening, ((Problem.unfitChildren names expected).message e.name).toList =
          opening ++ ("Expected DTD sequence: ".toList ++ expected.toList)) ∧
        ∃ enforced shown, definition.rule = .children enforced ∧
          ContentModel.compile expected.toList = .ok shown ∧ shown.Agrees enforced ∧
          shown.accepts (e.children.map Element.name) = false) ∧
      (∀ spec other : List Char, Text.removeBlanks other = Text.removeBlanks spec →
        (∃ fault, ContentModel.compile spec = .error fault ∧
          ContentModel.compile other = .error fault) ∨
        ∃ automaton found, ContentModel.compile spec = .ok automaton ∧
          ContentModel.compile other = .ok found ∧ found.Agrees automaton) ∧
      ∀ definition : Definition, definition.shownSpec =
        String.ofList (Text.normalizeBlanks definition.spec.toList) := by
  refine ⟨?_, fun spec other hBlanks => ContentModel.compile_cases_of_respelled hBlanks,
    Definition.shownSpec_eq⟩
  intro cs index found hFound definition hDefinition α e previewLength names expected hProblem
  obtain ⟨-, rfl, enforced, hRule, hRefused⟩ := eq_of_unfitChildren_mem_problems hProblem
  have hFaithful := faithful_of_compile hFound definition hDefinition
  refine ⟨message_unfitChildren _ _ _, enforced, _, hRule,
    hFaithful.exists_compile_shownSpec hRule, enforced.agrees_respelled _, ?_⟩
  rw [ContentModel.Automaton.accepts_respelled]
  exact hRefused

/-- A crate declared to hold a box and then a jar. The declaration goes over two lines. -/
def crateDeclaration : List Char := "<!ELEMENT crate ( box -- first -- ,\n\tjar )>".toList

def crate : Element Unit := ⟨"crate", (), .element "jar" () .done .done⟩

/-- The box is missing, and what is shown on one line says so. -/
theorem expectation_certified_of_crate :
    ∃ found definition,
      compile crateDeclaration (.ofText crateDeclaration) = .ok found ∧
      definition ∈ found.table.definitions ∧
      .unfitChildren ["jar"] "( box , jar )" ∈ problems 20 definition crate ∧
      ∃ shown, ContentModel.compile "( box , jar )".toList = .ok shown ∧
        shown.accepts ["jar"] = false := by
  have hProblems : (compile crateDeclaration (.ofText crateDeclaration)).map (fun found =>
      found.table.definitions.map fun definition => problems 20 definition crate) =
        .ok [[.unfitChildren ["jar"] "( box , jar )"]] := by
    decide +kernel
  cases hFound : compile crateDeclaration (.ofText crateDeclaration) with
  | error fault =>
    rw [hFound] at hProblems
    cases hProblems
  | ok found =>
    rw [hFound] at hProblems
    obtain ⟨definition, hDefinitions, hHere⟩ :=
      List.map_eq_singleton_iff.mp (Except.ok.inj hProblems)
    have hDefinition : definition ∈ found.table.definitions := by simp [hDefinitions]
    have hProblem : .unfitChildren ["jar"] "( box , jar )" ∈ problems 20 definition crate := by
      simp [hHere]
    obtain ⟨-, _, shown, _, hShown, _, hRefused⟩ := expectation_certified.1 _ _ found hFound
      definition hDefinition Unit crate 20 _ _ hProblem
    exact ⟨found, definition, rfl, hDefinition, hProblem, shown, hShown, hRefused⟩

end DtdConformance.Conformance
