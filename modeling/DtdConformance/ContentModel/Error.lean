import DtdConformance.Text.Quoted

/-! # Faults of a content model

Why a content model has no meaning. A model is a list of names and of the seven operators for
groups, order, choice and repetition.
-/
namespace DtdConformance.ContentModel
set_option autoImplicit false

inductive Repetition where
  | optional
  | many
  | some
  deriving Repr, DecidableEq

namespace Repetition

def toChar : Repetition → Char
  | optional => '?'
  | many => '*'
  | some => '+'

def allowsNone : Repetition → Bool
  | optional | many => true
  | some => false

def allowsMore : Repetition → Bool
  | many | some => true
  | optional => false

end Repetition

inductive Fault where
  | invalidName (piece : String)
  | noTokens
  | unbalancedClose
  | unbalancedOpen
  | nothingToRepeat (mark : Repetition)
  | repeatedMark (mark : Repetition)
  | tooDeep
  deriving Repr, DecidableEq

def Fault.message : Fault → String
  | invalidName piece => s!"Invalid name token {Text.quoted piece} in content spec"
  | noTokens => "Content spec is empty"
  | unbalancedClose => "Unbalanced ')' in content spec"
  | unbalancedOpen => "Unbalanced '(' in content spec"
  | nothingToRepeat mark =>
    s!"Nothing to repeat before {Text.quoted (String.singleton mark.toChar)}"
  | repeatedMark mark =>
    s!"Repeated occurrence indicator {Text.quoted (String.singleton mark.toChar)}"
  | tooDeep => "Content spec nests too deeply"

end DtdConformance.ContentModel
