import DtdConformance.ContentModel.PositionSet
import DtdConformance.ContentModel.Reading

/-! # The position automaton of a content model

Every name of a model is a position, numbered from one from left to right. The automaton records
which positions may come first, which may come last and which may follow which; state zero is the
start. A child list is matched by the set of the positions at which it may stand.
-/
namespace DtdConformance.ContentModel
set_option autoImplicit false

namespace Expression

/-- The positions at which an allowed list may begin. -/
def first : Expression Nat → PositionSet
  | empty => .empty
  | leaf p => .singleton p
  | sequence left right => if left.nullable then left.first.union right.first else left.first
  | choice left right => left.first.union right.first
  | repetition _ body => body.first

/-- The positions at which an allowed list may end. -/
def last : Expression Nat → PositionSet
  | empty => .empty
  | leaf p => .singleton p
  | sequence left right => if right.nullable then left.last.union right.last else right.last
  | choice left right => left.last.union right.last
  | repetition _ body => body.last

/-- The steps between neighbours of allowed lists, each from all of a set to all of another. -/
def links : Expression Nat → List (PositionSet × PositionSet)
  | empty => []
  | leaf _ => []
  | sequence left right => left.links ++ right.links ++ [(left.last, right.first)]
  | choice left right => left.links ++ right.links
  | repetition mark body =>
    if mark.allowsMore then body.links ++ [(body.last, body.first)] else body.links

end Expression

structure Automaton where
  spec : String
  /-- The name at each position, that of position one first. -/
  names : Array String
  follow : Array PositionSet
  accepting : PositionSet
  deriving DecidableEq

namespace Automaton

def positionCount (automaton : Automaton) : Nat := automaton.names.size

def addLink (follow : Array PositionSet) (link : PositionSet × PositionSet) : Array PositionSet :=
  link.1.toList.foldl (fun follow p => follow.modify p (·.union link.2)) follow

def ofExpression (spec : String) (expression : Expression String) : Automaton :=
  let marked := (expression.numbered 1).1
  let names := expression.leaves.toArray
  { spec
    names
    follow := (marked.links.foldl addLink (Array.replicate (names.size + 1) .empty)).setIfInBounds 0
      marked.first
    accepting := if marked.nullable then marked.last.insert 0 else marked.last }

def bearing (automaton : Automaton) (name : String) : PositionSet :=
  automaton.names.toList.zipIdx.foldl
    (fun found (other, i) => if other = name then found.insert (i + 1) else found) .empty

def followOf (automaton : Automaton) (state : Nat) : PositionSet :=
  automaton.follow.getD state .empty

def successors (automaton : Automaton) (state : Nat) (name : String) : PositionSet :=
  (automaton.followOf state).inter (automaton.bearing name)

/-- The names that may follow a state, each with the positions that it leads to, in the order of
their first positions. -/
def transitions (automaton : Automaton) (state : Nat) : List (String × PositionSet) :=
  let names := ((automaton.followOf state).toList.filterMap fun p =>
    if p = 0 then none else automaton.names[p - 1]?).eraseDups
  names.map fun name => (name, automaton.successors state name)

def next (automaton : Automaton) (active : PositionSet) (name : String) : PositionSet :=
  (active.toList.foldl (fun (reached : PositionSet) state => reached.union (automaton.followOf state))
    PositionSet.empty).inter
    (automaton.bearing name)

def acceptsFrom (automaton : Automaton) (active : PositionSet) : List String → Bool
  | [] => !(active.inter automaton.accepting).isEmpty
  | name :: names =>
    let reached := automaton.next active name
    !reached.isEmpty && automaton.acceptsFrom reached names

def accepts (automaton : Automaton) (names : List String) : Bool :=
  automaton.acceptsFrom (.singleton 0) names

end Automaton

def compile (spec : List Char) : Except Fault Automaton := do
  let tokens ← tokenize spec
  match Expression.ofTokens tokens with
  | .ok expression => .ok (.ofExpression (String.ofList spec) expression)
  | .error refusal => .error refusal.fault

end DtdConformance.ContentModel
