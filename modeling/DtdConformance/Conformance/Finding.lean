import DtdConformance.Conformance.Problem
import DtdConformance.Log

/-! # Findings in a tree

The problems of all elements of a tree in document order. The label of an element is the line on
which it stands, if that is known. Nothing below an undeclared element is looked at.
-/
namespace DtdConformance.Conformance
set_option autoImplicit false

open Document Dtd

/-- A problem, the element that has it and the line of its definition. -/
structure Finding where
  element : String
  line : Option Nat
  declaredAt : Option Int
  problem : Problem
  deriving Repr, DecidableEq

namespace Finding

def diagnostic (finding : Finding) : Diagnostic where
  documentLine := finding.line.map (fun line => (line : Int))
  declarationLine := finding.declaredAt
  message := finding.problem.message finding.element

def render (finding : Finding) : String := finding.diagnostic.render

end Finding

def findingsAt (table : Table) (previewLength : Int) (e : Element (Option Nat)) : List Finding :=
  match table.find? e.name with
  | none => [⟨e.name, e.label, none, .undeclared⟩]
  | some definition =>
    (problems previewLength definition e).map fun problem =>
      ⟨e.name, e.label, some definition.line, problem⟩

/-- The findings of a list of trees whose elements are still to be looked at. The children of a
declared element are put before the rest. -/
def walk (table : Table) (previewLength : Int) (pending : List (Element (Option Nat))) :
    List Finding :=
  match pending with
  | [] => []
  | e :: pending =>
    findingsAt table previewLength e ++
      if table.contains e.name then walk table previewLength (e.children ++ pending)
      else walk table previewLength pending
termination_by Element.totalCount pending
decreasing_by
  · have := e.totalCount_children_lt
    simp only [Element.totalCount_append, Element.totalCount]
    omega
  · simp only [Element.totalCount, Element.elementCount]
    omega

def findings (table : Table) (previewLength : Int) (root : Element (Option Nat)) :
    List Finding :=
  walk table previewLength [root]

def report (found : List Finding) : Log.Entry :=
  ⟨.structuralCheck, .debug, s!"Structural validation produced {found.length} diagnostic(s)"⟩

end DtdConformance.Conformance
