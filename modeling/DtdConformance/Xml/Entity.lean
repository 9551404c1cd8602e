import DtdConformance.Xml.Scan

/-! # Entities and references

A reference stands for one character or for an entity. Five entities are predefined; the document
type declaration may declare others. In the value of an attribute a reference is replaced by the
text of its entity, which may hold further references but no less-than sign.
-/
namespace DtdConformance.Xml
set_option autoImplicit false

inductive Entity where
  | internal (text : List Char)
  /-- An entity whose text stands elsewhere and is never fetched. -/
  | external
  | unparsed
  deriving Repr, DecidableEq

/-- What the document type declaration says, as far as reading depends on it. -/
structure Declarations where
  general : List (String × Entity)
  /-- Parameter entities, with no text for external ones. -/
  parameter : List (String × Option (List Char))
  /-- Default values: the element, the attribute and the value. -/
  defaults : List (String × String × List Char)
  hasExternalSubset : Bool
  hasParameterReferences : Bool
  standalone : Bool
  deriving Repr, DecidableEq

namespace Declarations

def none : Declarations := ⟨[], [], [], false, false, false⟩

/-- Every entity that is referred to must be declared: no declaration can stand outside the
document. -/
def isComplete (declarations : Declarations) : Bool :=
  declarations.standalone ||
    !(declarations.hasExternalSubset || declarations.hasParameterReferences)

def addGeneral (declarations : Declarations) (name : String) (entity : Entity) : Declarations :=
  { declarations with general := declarations.general ++ [(name, entity)] }

def addParameter (declarations : Declarations) (name : String) (text : Option (List Char)) :
    Declarations :=
  { declarations with parameter := declarations.parameter ++ [(name, text)] }

def addDefault (declarations : Declarations) (owner name : String) (value : List Char) :
    Declarations :=
  if declarations.defaults.any (fun (o, n, _) => o == owner && n == name) then declarations
  else { declarations with defaults := declarations.defaults ++ [(owner, name, value)] }

def textLength (declarations : Declarations) : Nat :=
  declarations.general.foldl (fun length (_, entity) =>
    match entity with
    | .internal text => length + text.length
    | _ => length) 0

end Declarations

def predefined? (name : String) : Option Char :=
  [("lt", '<'), ("gt", '>'), ("amp", '&'), ("quot", '\x22'), ("apos", '\x27')].lookup name

inductive Reference where
  | character (c : Char)
  | entity (name : String)
  deriving Repr, DecidableEq

namespace Scan

def digitOf? (c : Char) : Option Nat :=
  if '0' ≤ c ∧ c ≤ '9' then some (c.toNat - '0'.toNat)
  else if 'a' ≤ c ∧ c ≤ 'f' then some (c.toNat - 'a'.toNat + 10)
  else if 'A' ≤ c ∧ c ≤ 'F' then some (c.toNat - 'A'.toNat + 10)
  else none

def numberOf? (base : Nat) (cs : List Char) : Option Nat :=
  cs.foldlM (fun n c => (digitOf? c).bind fun d => if d < base then some (n * base + d) else none) 0

def reference : Scan Reference := do
  if ← accept "#" then
    let base := if ← accept "x" then 16 else 10
    let digits ← takeWhile (fun c => (digitOf? c).isSome)
    unless ← accept ";" do fail .invalidReference
    match numberOf? base digits with
    | some n =>
      if digits.isEmpty || 0x110000 ≤ n || (0xD800 ≤ n && n < 0xE000) || !isChar (Char.ofNat n) then
        fail .invalidReference
      else return .character (Char.ofNat n)
    | none => fail .invalidReference
  else
    match ← name? with
    | none => fail .invalidReference
    | some name =>
      unless ← accept ";" do fail .invalidReference
      return .entity name

end Scan

/-- The most text that entities may expand to in one value. -/
def expansionLimit : Nat := 1000000

/-- What one reference costs besides its text. -/
def referenceCost : Nat := 20

/-- Replaces the references of a value. The fuel bounds the characters read along a chain of
entities, `active` holds the entities of the chain, and `budget` bounds the expansion. -/
def expandValue (declarations : Declarations) (fuel : Nat) (active : List String) (budget : Nat)
    (cs : List Char) : Except Fault (List Char × Nat) :=
  match fuel, cs with
  | 0, _ | _, [] => .ok ([], budget)
  | fuel + 1, c :: rest =>
    if c = '<' then .error (.misplaced "less-than sign")
    else if c = '&' then
      match Scan.reference.run rest with
      | .error fault => .error fault
      | .ok (reference, rest) =>
        let replaced : Except Fault (List Char × Nat) :=
          match reference with
          | .character c => .ok ([c], budget)
          | .entity name =>
            match predefined? name, declarations.general.lookup name with
            | some c, _ => .ok ([c], budget)
            | none, some (.internal text) =>
              if active.contains name then .error (.recursiveEntity name)
              else if budget < text.length + referenceCost then .error .expansionTooLarge
              else
                expandValue declarations fuel (name :: active)
                  (budget - (text.length + referenceCost)) text
            | none, some _ => .error (.unusableEntity name)
            | none, none =>
              if declarations.isComplete then .error (.undeclaredEntity name) else .ok ([], budget)
        match replaced with
        | .error fault => .error fault
        | .ok (text, budget) =>
          (expandValue declarations fuel active budget rest).map fun (more, budget) =>
            (text ++ more, budget)
    else
      (expandValue declarations fuel active budget rest).map fun (more, budget) =>
        (c :: more, budget)

def Scan.attributeValue (declarations : Declarations) : Scan (List Char) := do
  let raw ← Scan.quoted "attribute value"
  match expandValue declarations (raw.length + declarations.textLength + 1) [] expansionLimit raw with
  | .ok (value, _) => return value
  | .error fault => Scan.fail fault

/-- The text of an entity as its declaration gives it: references to characters are replaced, and
references to entities are kept. The fuel bounds the number of characters. -/
def entityText (fuel : Nat) (cs : List Char) : Except Fault (List Char) :=
  match fuel, cs with
  | 0, _ | _, [] => .ok []
  | fuel + 1, c :: rest =>
    if c = '%' then .error (.misplaced "parameter entity reference")
    else if c = '&' then do
      let (reference, rest) ← Scan.reference.run rest
      let more ← entityText fuel rest
      match reference with
      | .character c => return c :: more
      | .entity name => return '&' :: name.toList ++ ';' :: more
    else do
      let more ← entityText fuel rest
      return c :: more

end DtdConformance.Xml
