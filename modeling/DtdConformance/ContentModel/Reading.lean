import DtdConformance.ContentModel.Expression
import DtdConformance.ContentModel.Token

/-! # Reading a content model

Tokens are read one by one into a stack of open groups. A choice is a list of sequences between
bars, a sequence a list of items with or without commas between them, and an item a name or a
group with at most one repetition mark. Sequences may be empty. A token is refused as soon as no
continuation could make the model complete.
-/
namespace DtdConformance.ContentModel
set_option autoImplicit false

def depthLimit : Nat := 300

/-- The last item of a sequence, while a repetition mark may still follow it or has just done
so. -/
inductive LastItem where
  | absent
  | unmarked (item : Expression String)
  | marked (item : Expression String)
  deriving Repr, DecidableEq

/-- An open group: the choice of its finished sequences, the current sequence without its last
item, and that item. -/
structure Group where
  finished : Option (Expression String)
  sequence : Expression String
  last : LastItem
  deriving Repr, DecidableEq

namespace Group

def new : Group := ⟨none, .empty, .absent⟩

def wholeSequence (group : Group) : Expression String :=
  match group.last with
  | .absent => group.sequence
  | .unmarked item | .marked item => .sequence group.sequence item

def expression (group : Group) : Expression String :=
  match group.finished with
  | none => group.wholeSequence
  | some finished => .choice finished group.wholeSequence

def addItem (group : Group) (item : Expression String) : Group :=
  { group with sequence := group.wholeSequence, last := .unmarked item }

def endItem (group : Group) : Group :=
  { group with sequence := group.wholeSequence, last := .absent }

def endSequence (group : Group) : Group := ⟨some group.expression, .empty, .absent⟩

def repeatLast (group : Group) (mark : Repetition) : Except Fault Group :=
  match group.last with
  | .absent => .error (.nothingToRepeat mark)
  | .unmarked item => .ok { group with last := .marked (.repetition mark item) }
  | .marked _ => .error (.repeatedMark mark)

end Group

/-- The innermost open group and those around it, from the inside out. The outermost group is the
whole model. -/
structure Reading where
  inner : Group
  outer : List Group
  deriving Repr, DecidableEq

namespace Reading

def start : Reading := ⟨.new, []⟩

def step (reading : Reading) : Token → Except Fault Reading
  | .name text => .ok { reading with inner := reading.inner.addItem (.leaf text) }
  | .operator .openGroup =>
    if reading.outer.length < depthLimit then .ok ⟨.new, reading.inner :: reading.outer⟩
    else .error .tooDeep
  | .operator .closeGroup =>
    match reading.outer with
    | [] => .error .unbalancedClose
    | group :: outer => .ok ⟨group.addItem reading.inner.expression, outer⟩
  | .operator .comma => .ok { reading with inner := reading.inner.endItem }
  | .operator .bar => .ok { reading with inner := reading.inner.endSequence }
  | .operator (.mark repetition) => do
    let inner ← reading.inner.repeatLast repetition
    return { reading with inner }

def finish (reading : Reading) : Except Fault (Expression String) :=
  if reading.outer.isEmpty then .ok reading.inner.expression else .error .unbalancedOpen

end Reading

/-- A fault with the number of tokens read before it. -/
structure Refusal where
  fault : Fault
  index : Nat
  deriving Repr, DecidableEq

/-- Reads tokens on, `index` of them having been read. -/
def Reading.advance (reading : Reading) (index : Nat) : List Token → Except Refusal Reading
  | [] => .ok reading
  | token :: tokens =>
    match reading.step token with
    | .ok reading => reading.advance (index + 1) tokens
    | .error fault => .error ⟨fault, index⟩

def Expression.ofTokens (tokens : List Token) : Except Refusal (Expression String) := do
  let reading ← Reading.start.advance 0 tokens
  match reading.finish with
  | .ok expression => .ok expression
  | .error fault => .error ⟨fault, tokens.length⟩

end DtdConformance.ContentModel
