import DtdConformance.ContentModel.Automaton

/-! # Spellings of a content model

Content models that differ in blanks alone have the same tokens. They have no meaning for the same
reason, or their automata take the same steps and end in the same states.
-/
namespace DtdConformance.ContentModel
set_option autoImplicit false

/-- The automata have the same states, lead from each of them by the same names to the same states
and may end in the same ones. -/
structure Automaton.Agrees (automaton other : Automaton) : Prop where
  states : automaton.positionCount = other.positionCount
  transitions : ∀ state, automaton.transitions state = other.transitions state
  accepting : automaton.accepting = other.accepting

namespace Automaton

/-- An automaton does not read the content model that it was made from. -/
theorem agrees_respelled (automaton : Automaton) (spec : String) :
    Agrees { automaton with spec } automaton := ⟨rfl, fun _ => rfl, rfl⟩

theorem acceptsFrom_respelled (automaton : Automaton) (spec : String) (active : PositionSet)
    (names : List String) :
    acceptsFrom { automaton with spec } active names = automaton.acceptsFrom active names := by
  induction names generalizing active with
  | nil => rfl
  | cons name names ih =>
    have hNext : next { automaton with spec } active name = automaton.next active name := rfl
    rw [acceptsFrom, acceptsFrom, hNext, ih]

theorem accepts_respelled (automaton : Automaton) (spec : String) (names : List String) :
    accepts { automaton with spec } names = automaton.accepts names :=
  acceptsFrom_respelled automaton spec (.singleton 0) names

end Automaton

section

variable {spec other : List Char}

theorem compile_respelled (h : Text.removeBlanks other = Text.removeBlanks spec) :
    compile other =
      (compile spec).map fun automaton => { automaton with spec := String.ofList other } := by
  have hTokens : tokenize other = tokenize spec := by rw [tokenize, tokenize, h]
  unfold compile
  rw [hTokens]
  cases hRead : tokenize spec with
  | error fault => rfl
  | ok tokens =>
    cases hExpression : Expression.ofTokens tokens with
    | error refusal => simp only [hExpression, bind, Except.bind, Except.map]
    | ok expression =>
      simp only [hExpression, bind, Except.bind, Except.map]
      rfl

theorem compile_cases_of_respelled (h : Text.removeBlanks other = Text.removeBlanks spec) :
    (∃ fault, compile spec = .error fault ∧ compile other = .error fault) ∨
      ∃ automaton found, compile spec = .ok automaton ∧ compile other = .ok found ∧
        found.Agrees automaton := by
  rw [compile_respelled h]
  cases hCompile : compile spec with
  | error fault => exact .inl ⟨fault, rfl, rfl⟩
  | ok automaton => exact .inr ⟨automaton, _, rfl, rfl, automaton.agrees_respelled _⟩

end

end DtdConformance.ContentModel
