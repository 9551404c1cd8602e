import DtdConformance.ContentModel.Automaton

/-! # Element definitions

What one declaration says about the content of the elements of its name, and where it stands.
-/
namespace DtdConformance.Dtd
set_option autoImplicit false

inductive ContentRule where
  | empty
  | any
  | text
  /-- Text and children of the listed names in any order. -/
  | mixed (allowed : List String)
  /-- Children as a content model orders them, and no text between them. -/
  | children (automaton : ContentModel.Automaton)
  deriving DecidableEq

def ContentRule.kind : ContentRule → String
  | empty => "EMPTY"
  | any => "ANY"
  | text => "PCDATA"
  | mixed _ => "MIXED"
  | children _ => "CHILDREN"

structure Definition where
  name : String
  rule : ContentRule
  /-- The content model as written, without inline comments and without blanks at its ends. -/
  spec : String
  line : Int
  deriving DecidableEq

namespace Definition

def shownSpec (definition : Definition) : String :=
  " ".intercalate ((Text.words definition.spec.toList).map String.ofList)

def allowed (definition : Definition) : List String :=
  match definition.rule with
  | .mixed allowed => allowed
  | _ => []

def allowsMixedChild (definition : Definition) (name : String) : Bool :=
  definition.allowed.contains name

def automaton? (definition : Definition) : Option ContentModel.Automaton :=
  match definition.rule with
  | .children automaton => some automaton
  | _ => none

end Definition

end DtdConformance.Dtd
