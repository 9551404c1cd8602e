/-! # Faults of documents

Why a text is no well-formed document.
-/
namespace DtdConformance.Xml
set_option autoImplicit false

inductive Fault where
  | expected (what : String)
  | misplaced (what : String)
  | unfinished (what : String)
  | forbiddenCharacter
  | invalidReference
  | undeclaredEntity (name : String)
  | recursiveEntity (name : String)
  | unusableEntity (name : String)
  | expansionTooLarge
  | repeatedAttribute (name : String)
  | unboundPrefix (name : String)
  | malformedName (name : String)
  | reservedNamespace
  | invalidNamespace (name : String)
  | tooDeep (limit : Nat)
  | mismatchedEnd (opened closed : String) (line : Nat)
  deriving Repr, DecidableEq

namespace Fault

def message : Fault → String
  | expected what => s!"{what} expected"
  | misplaced what => s!"{what} is not allowed here"
  | unfinished what => s!"{what} is not finished"
  | forbiddenCharacter => "a character is not allowed in documents"
  | invalidReference => "invalid reference"
  | undeclaredEntity name => s!"entity {name} is not declared"
  | recursiveEntity name => s!"entity {name} refers to itself"
  | unusableEntity name => s!"entity {name} may not be referred to here"
  | expansionTooLarge => "entities expand to too much text"
  | repeatedAttribute name => s!"attribute {name} is repeated"
  | unboundPrefix name => s!"the prefix of {name} is not bound to a namespace"
  | malformedName name => s!"the colons of {name} do not separate a prefix from a local part"
  | reservedNamespace => "a reserved namespace is bound"
  | invalidNamespace name => s!"{name} does not identify a namespace"
  | tooDeep limit => s!"elements nest deeper than {limit}"
  | mismatchedEnd opened closed _ => s!"end tag of {closed} where {opened} is open"

def line? : Fault → Option Nat
  | mismatchedEnd _ _ line => some line
  | _ => none

end Fault

end DtdConformance.Xml
