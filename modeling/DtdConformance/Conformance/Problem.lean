import DtdConformance.Conformance.Diagnostic
import DtdConformance.Document.Tree
import DtdConformance.Dtd.Table
import DtdConformance.Text.Quoted

/-! # Problems of a single element

What is wrong with one element under a definition, and how it is said. The elements inside its
children play no part.
-/
namespace DtdConformance.Conformance
set_option autoImplicit false

open Document Dtd

inductive Problem where
  | undeclared
  /-- An element declared empty holds a child or text. -/
  | notEmpty
  /-- An element declared to hold text alone has a child. -/
  | childInText
  | unexpectedChild (child : String) (allowed : List String)
  | textBetweenChildren (preview : String)
  | unfitChildren (found : List String) (expected : String)
  deriving Repr, DecidableEq

def shownChildren (names : List String) : String :=
  if names.isEmpty then "None" else ", ".intercalate names

def Problem.message (name : String) : Problem → String
  | undeclared => s!"Element <{name}> is used in XML but not defined in DTD."
  | notEmpty => s!"Element <{name}> is declared EMPTY but contains content."
  | childInText => s!"Element <{name}> is declared (#PCDATA) but contains child elements."
  | unexpectedChild child allowed =>
    let listed := ", ".intercalate allowed
    s!"Element <{name}> contains unexpected child <{child}>. Allowed mixed content: {listed}."
  | textBetweenChildren preview =>
    let quote := String.singleton Text.doubleQuote
    s!"Element <{name}> has element-only content definition but contains text data: " ++
      s!"{quote}{preview}...{quote}"
  | unfitChildren found expected =>
    s!"Element <{name}> has invalid content structure.\n" ++
      s!"Found children: [{shownChildren found}]\n" ++
      s!"Expected DTD sequence: {expected}"

/-- The beginning of a text. A negative length counts characters left out at the end. -/
def beginning (length : Int) (cs : List Char) : List Char :=
  if length < 0 then cs.take (cs.length - length.natAbs) else cs.take length.toNat

def problems {α : Type} (previewLength : Int) (definition : Definition) (e : Element α) :
    List Problem :=
  match definition.rule with
  | .empty => if e.children.isEmpty && !Text.hasText e.directText then [] else [.notEmpty]
  | .any => []
  | .text => if e.children.isEmpty then [] else [.childInText]
  | .mixed allowed =>
    (e.children.filter fun child => !definition.allowsMixedChild child.name).map fun child =>
      .unexpectedChild child.name allowed
  | .children automaton =>
    let text := Text.trim e.directText
    let names := e.children.map Element.name
    (if text.isEmpty then []
      else [.textBetweenChildren (String.ofList (beginning previewLength text))]) ++
      if automaton.accepts names then [] else [.unfitChildren names definition.shownSpec]

end DtdConformance.Conformance
