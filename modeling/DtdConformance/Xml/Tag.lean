import DtdConformance.Xml.Entity
import DtdConformance.Xml.UriReference

/-! # Start tags and namespaces

A start tag names an element and its attributes. A name may have a prefix, which must be bound to
a namespace by an attribute of the element or of one around it. No two attributes may agree in
namespace and local part.
-/
namespace DtdConformance.Xml
set_option autoImplicit false

/-- The namespaces that prefixes are bound to, the innermost binding first. -/
abbrev Scope := List (String × List Char)

def xmlNamespace : List Char := "http://www.w3.org/XML/1998/namespace".toList

def bindingNamespace : List Char := "http://www.w3.org/2000/xmlns/".toList

structure SplitName where
  prefix? : Option String
  localPart : String
  deriving Repr, DecidableEq

def splitName (name : String) : Except Fault SplitName :=
  match Text.splitOn ':' name.toList with
  | [_] => .ok ⟨none, name⟩
  | [before, after] =>
    if !before.isEmpty && after.head?.any isNameStart then
      .ok ⟨some (String.ofList before), String.ofList after⟩
    else .error (.malformedName name)
  | _ => .error (.malformedName name)

def Scope.find? (scope : Scope) (pre : String) : Option (List Char) :=
  if pre = "xml" then some xmlNamespace else scope.lookup pre

/-- Binds a prefix, or sets the default namespace when there is none. -/
def bindNamespace (scope : Scope) (pre? : Option String) (value : List Char) :
    Except Fault Scope :=
  match pre? with
  | none =>
    if value.isEmpty then .ok scope
    else if value = xmlNamespace ∨ value = bindingNamespace then .error .reservedNamespace
    else if UriReference.isValid value then .ok scope
    else .error (.invalidNamespace (String.ofList value))
  | some pre =>
    if pre = "xml" then if value = xmlNamespace then .ok scope else .error .reservedNamespace
    else if pre = "xmlns" ∨ value = xmlNamespace ∨ value = bindingNamespace then
      .error .reservedNamespace
    else if !value.isEmpty && UriReference.isValid value then .ok ((pre, value) :: scope)
    else .error (.invalidNamespace (String.ofList value))

structure Attribute where
  name : String
  value : List Char
  deriving Repr, DecidableEq

/-- The attribute binds a namespace; with the prefix that it binds, if it has one. -/
def Attribute.binding? (split : SplitName) : Option (Option String) :=
  if split.prefix? = some "xmlns" then some (some split.localPart)
  else if split.prefix? = none ∧ split.localPart = "xmlns" then some none
  else none

def scopeOf (scope : Scope) : List Attribute → Except Fault Scope
  | [] => .ok scope
  | a :: rest => do
    let split ← splitName a.name
    match Attribute.binding? split with
    | some pre? => scopeOf (← bindNamespace scope pre? a.value) rest
    | none => scopeOf scope rest

def namespaceOf (scope : Scope) (name : String) (split : SplitName) :
    Except Fault (Option (List Char)) :=
  match split.prefix? with
  | none => .ok none
  | some pre =>
    match Scope.find? scope pre with
    | some space => .ok (some space)
    | none => .error (.unboundPrefix name)

/-- Checks that prefixes are bound and that no attribute is repeated under its expanded name.
Attributes that bind namespaces are left out. -/
def checkExpanded (scope : Scope) (seen : List (Option (List Char) × String)) :
    List Attribute → Except Fault Unit
  | [] => .ok ()
  | a :: rest => do
    let split ← splitName a.name
    if (Attribute.binding? split).isSome then checkExpanded scope seen rest
    else
      let space ← namespaceOf scope a.name split
      if seen.contains (space, split.localPart) then .error (.repeatedAttribute a.name)
      else checkExpanded scope ((space, split.localPart) :: seen) rest

def withDefaults (known : Declarations) (name : String) (attributes : List Attribute) :
    List Attribute :=
  attributes ++ known.defaults.filterMap fun (owner, attributeName, value) =>
    if owner = name ∧ attributes.all (fun a => a.name ≠ attributeName) then
      some ⟨attributeName, value⟩
    else none

def resolve (known : Declarations) (scope : Scope) (name : String) (attributes : List Attribute) :
    Except Fault Scope := do
  let all := withDefaults known name attributes
  let inner ← scopeOf scope all
  let split ← splitName name
  let _ ← namespaceOf inner name split
  checkExpanded inner [] all
  return inner

/-- The attributes of a tag up to its end. No name may stand twice. The fuel bounds their
number. -/
def Scan.attributes (known : Declarations) :
    (fuel : Nat) → (found : List Attribute) → Scan (List Attribute)
  | 0, _ => Scan.fail (.unfinished "start tag")
  | fuel + 1, found => do
    let separated ← Scan.spaces
    if (← Scan.atChar '>') || (← Scan.atWord "/>") then return found.reverse
    unless separated do Scan.fail (.expected "white space")
    let name ← Scan.name "name of an attribute"
    if found.any (fun a => a.name == name) then Scan.fail (.repeatedAttribute name)
    Scan.skipSpaces
    Scan.expect "="
    Scan.skipSpaces
    let value ← Scan.attributeValue known
    Scan.attributes known fuel (⟨name, value⟩ :: found)

end DtdConformance.Xml
