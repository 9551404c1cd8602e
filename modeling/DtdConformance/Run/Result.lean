import DtdConformance.Conformance.Finding
import DtdConformance.Text.Search

/-! # Results

How a validation ends: with the findings of a tree that was checked, or with the failure that kept
the check from taking place. A result is what is told of the ending.
-/
namespace DtdConformance.Run
set_option autoImplicit false

open Conformance

inductive Failure where
  | noDefinitions
  | malformed (text : String)
  | noRoot
  | internal (text : String)
  deriving Repr, DecidableEq

namespace Failure

def error : Failure → String
  | noDefinitions => Dtd.TableFault.noDeclarations.message
  | malformed text => s!"XML Syntax Error: {text}"
  | noRoot => "XML document has no root element."
  | internal text => s!"Internal Validator Error: {text}"

def summary : Failure → String
  | noDefinitions => "DTD parsing failed or input was empty."
  | malformed _ => "The XML document is not well-formed."
  | noRoot => "The XML document has no root element."
  | internal _ => "An unexpected error occurred during validation."

end Failure

structure Result where
  isValid : Bool
  errors : List String
  summary : String
  time : String
  deriving Repr, DecidableEq

def Result.errorCount (result : Result) : Nat := result.errors.length

inductive Ending where
  | checked (findings : List Finding)
  | failed (failure : Failure)
  deriving Repr, DecidableEq

namespace Ending

def isFailure : Ending → Bool
  | checked _ => false
  | failed _ => true

def isValid : Ending → Bool
  | checked findings => findings.isEmpty
  | failed _ => false

def errors : Ending → List String
  | checked findings => findings.map Finding.render
  | failed failure => [failure.error]

def summary : Ending → String
  | checked findings =>
    if findings.isEmpty then
      "Validation Successful. The XML strictly adheres to the DTD structure."
    else s!"Validation Failed. Found {findings.length} structural error(s)."
  | failed failure => failure.summary

def result (ending : Ending) (time : String) : Result where
  isValid := ending.isValid
  errors := ending.errors
  summary := ending.summary
  time := time

end Ending

namespace Result

def title (result : Result) : String :=
  if result.isValid then "Validation Successful" else "Validation Failed"

/-- The lines of an error: a bullet before the first, and the others indented under it. -/
def bullet (error : String) : List String :=
  match Text.splitOn '\n' error.toList with
  | [] => []
  | first :: rest =>
    ("  - " ++ String.ofList first) :: rest.map fun line => "    " ++ String.ofList line

def text (label : String) (result : Result) : String :=
  let title := if label.isEmpty then result.title else s!"{label}: {result.title}"
  "\n".intercalate (title :: ("  " ++ result.summary) :: result.errors.flatMap bullet)

end Result

end DtdConformance.Run
