import DtdConformance.ContentModel.Error
import DtdConformance.Text.Blank

/-! # Tokens of a content model

A model is cut into names and operators once its blanks are removed. A name is a longest run of
characters that are no operators, and each of its characters must be a name character or the
number sign.
-/
namespace DtdConformance.ContentModel
set_option autoImplicit false

inductive Operator where
  | openGroup
  | closeGroup
  | comma
  | bar
  | mark (repetition : Repetition)
  deriving Repr, DecidableEq

namespace Operator

def toChar : Operator → Char
  | openGroup => '('
  | closeGroup => ')'
  | comma => ','
  | bar => '|'
  | mark repetition => repetition.toChar

def ofChar? (c : Char) : Option Operator :=
  if c = '(' then some openGroup
  else if c = ')' then some closeGroup
  else if c = ',' then some comma
  else if c = '|' then some bar
  else if c = '*' then some (mark .many)
  else if c = '+' then some (mark .some)
  else if c = '?' then some (mark .optional)
  else none

@[simp] theorem ofChar?_toChar (op : Operator) : ofChar? op.toChar = some op := by
  cases op with
  | mark repetition => cases repetition <;> rfl
  | _ => rfl

theorem toChar_of_ofChar? {c : Char} {op : Operator} (h : ofChar? c = some op) :
    op.toChar = c := by
  unfold ofChar? at h
  repeat' split at h
  all_goals first
    | (simp only [Option.some.injEq] at h; subst h; simp_all [toChar, Repetition.toChar])
    | simp at h

end Operator

inductive Token where
  | name (text : String)
  | operator (op : Operator)
  deriving Repr, DecidableEq

def Token.chars : Token → List Char
  | .name text => text.toList
  | .operator op => [op.toChar]

def isModelNameChar (c : Char) : Bool := Text.isNameChar c || c == '#'

/-- The token of a run of characters between two operators; none for an empty run. -/
def nameToken (run : List Char) : Except Fault (List Token) :=
  if run.isEmpty then .ok []
  else if run.all isModelNameChar then .ok [.name (String.ofList run)]
  else .error (.invalidName (String.ofList run))

/-- The tokens of a text without blanks. The accumulator holds the current run in reverse. -/
def tokensFrom (run : List Char) : List Char → Except Fault (List Token)
  | [] => nameToken run.reverse
  | c :: cs =>
    match Operator.ofChar? c with
    | none => tokensFrom (c :: run) cs
    | some op => do
      let name ← nameToken run.reverse
      let tokens ← tokensFrom [] cs
      return name ++ .operator op :: tokens

def tokenize (spec : List Char) : Except Fault (List Token) := do
  let tokens ← tokensFrom [] (Text.removeBlanks spec)
  if tokens.isEmpty then .error .noTokens else .ok tokens

end DtdConformance.ContentModel
