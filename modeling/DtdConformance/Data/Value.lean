import DtdConformance.Decimal.Binary64
import DtdConformance.Text.Quoted

/-! # Values of data files

The values that a data file can hold. A mapping keeps its keys in the order in which they were
first written; a key that is written again takes the later value.
-/
namespace DtdConformance.Data
set_option autoImplicit false

inductive Value where
  | null
  | bool (b : Bool)
  | int (n : Int)
  | float (x : Float)
  | text (s : String)
  | list (items : List Value)
  | mapping (entries : List (Value × Value))
  deriving Inhabited

namespace Value

def kind : Value → String
  | null => "NoneType"
  | bool _ => "bool"
  | int _ => "int"
  | float _ => "float"
  | text _ => "str"
  | list _ => "list"
  | mapping _ => "dict"

mutual

def shown : Value → String
  | null => "None"
  | bool b => if b then "True" else "False"
  | int n => toString n
  | float x => Decimal.text x
  | text s => Text.quoted s
  | list items => "[" ++ ", ".intercalate (shownItems items) ++ "]"
  | mapping entries => "\x7b" ++ ", ".intercalate (shownEntries entries) ++ "\x7d"

def shownItems : List Value → List String
  | [] => []
  | item :: items => item.shown :: shownItems items

def shownEntries : List (Value × Value) → List String
  | [] => []
  | (key, value) :: entries => (key.shown ++ ": " ++ value.shown) :: shownEntries entries

end

/-- Two keys that name the same entry. A truth value is the number one or zero, and a number with
a fraction of zero is a whole number. -/
def sameKey : Value → Value → Bool
  | null, null => true
  | text s, text t => s == t
  | a, b =>
    match numeric? a, numeric? b with
    | some x, some y => sameNumber x y
    | _, _ => false
where
  numeric? : Value → Option (Int ⊕ Float)
    | bool b => some (.inl (if b then 1 else 0))
    | int n => some (.inl n)
    | float x => some (.inr x)
    | _ => none
  sameNumber : Int ⊕ Float → Int ⊕ Float → Bool
    | .inl m, .inl n => m == n
    | .inr x, .inr y => x == y
    | .inl m, .inr y => Float.ofInt m == y
    | .inr x, .inl n => x == Float.ofInt n

/-- Binds a key, in the place of the same key or at the end. -/
def insertEntry (entries : List (Value × Value)) (key value : Value) : List (Value × Value) :=
  if entries.any (fun entry => sameKey entry.1 key) then
    entries.map fun entry => if sameKey entry.1 key then (entry.1, value) else entry
  else entries ++ [(key, value)]

end Value

end DtdConformance.Data
