import DtdConformance.ContentModel.Error

/-! # Content expressions

The meaning of a content model is a regular expression over names. Its words are the child lists
that the model allows.
-/
namespace DtdConformance.ContentModel
set_option autoImplicit false

inductive Expression (α : Type) where
  | empty
  | leaf (a : α)
  | sequence (left right : Expression α)
  | choice (left right : Expression α)
  | repetition (mark : Repetition) (body : Expression α)
  deriving Repr, DecidableEq

namespace Expression

variable {α : Type}

def leaves : Expression α → List α
  | empty => []
  | leaf a => [a]
  | sequence left right => left.leaves ++ right.leaves
  | choice left right => left.leaves ++ right.leaves
  | repetition _ body => body.leaves

def nullable : Expression α → Bool
  | empty => true
  | leaf _ => false
  | sequence left right => left.nullable && right.nullable
  | choice left right => left.nullable || right.nullable
  | repetition mark body => mark.allowsNone || body.nullable

/-- The same expression with its leaves numbered from left to right, and the first number not
used. -/
def numbered (next : Nat) : Expression α → Expression Nat × Nat
  | empty => (empty, next)
  | leaf _ => (leaf next, next + 1)
  | sequence left right =>
    let (left, next) := left.numbered next
    let (right, next) := right.numbered next
    (sequence left right, next)
  | choice left right =>
    let (left, next) := left.numbered next
    let (right, next) := right.numbered next
    (choice left right, next)
  | repetition mark body =>
    let (body, next) := body.numbered next
    (repetition mark body, next)

/-- The lists of leaves that an expression allows. -/
inductive Allows : Expression α → List α → Prop
  | empty : Allows empty []
  | leaf (a : α) : Allows (leaf a) [a]
  | sequence {left right : Expression α} {u v : List α} :
      Allows left u → Allows right v → Allows (sequence left right) (u ++ v)
  | choiceLeft {left right : Expression α} {u : List α} :
      Allows left u → Allows (choice left right) u
  | choiceRight {left right : Expression α} {u : List α} :
      Allows right u → Allows (choice left right) u
  | none {mark : Repetition} {body : Expression α} :
      mark.allowsNone = true → Allows (repetition mark body) []
  | once {mark : Repetition} {body : Expression α} {u : List α} :
      Allows body u → Allows (repetition mark body) u
  | more {mark : Repetition} {body : Expression α} {u v : List α} :
      mark.allowsMore = true → Allows body u → Allows (repetition mark body) v →
      Allows (repetition mark body) (u ++ v)

theorem allows_nil_of_nullable {e : Expression α} (h : e.nullable = true) : Allows e [] := by
  induction e with
  | empty => exact .empty
  | leaf a => simp [nullable] at h
  | sequence left right ihLeft ihRight =>
    simp only [nullable, Bool.and_eq_true] at h
    simpa using Allows.sequence (ihLeft h.1) (ihRight h.2)
  | choice left right ihLeft ihRight =>
    simp only [nullable, Bool.or_eq_true] at h
    rcases h with h | h
    · exact .choiceLeft (ihLeft h)
    · exact .choiceRight (ihRight h)
  | repetition mark body ih =>
    simp only [nullable, Bool.or_eq_true] at h
    rcases h with h | h
    · exact .none h
    · exact .once (ih h)

end Expression

end DtdConformance.ContentModel
