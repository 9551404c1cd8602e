import DtdConformance.Dtd.Declaration
import DtdConformance.Proofs.Text.Search

/-! # What a content model stands for

The five ways to read a content model without comments, each with the texts that are read that way.
A definition takes over what was read, and a fault leaves the element unconstrained.
-/
namespace DtdConformance.Dtd
set_option autoImplicit false

open Text

def emptyWord : List Char := ['E', 'M', 'P', 'T', 'Y']

def anyWord : List Char := ['A', 'N', 'Y']

/-- What a content model stands for, told by its text without blanks. The first rule that applies
counts. -/
inductive StandsFor (bare : List Char) : Except ContentModel.Fault ContentRule → Prop
  | empty (hWord : removeBlanks bare = emptyWord) : StandsFor bare (.ok .empty)
  | any (hWord : removeBlanks bare = anyWord) : StandsFor bare (.ok .any)
  | text (hMark : removeBlanks bare = characterDataMark ++ [')']) : StandsFor bare (.ok .text)
  | mixed (hMark : characterDataMark <+: removeBlanks bare)
      (hMore : removeBlanks bare ≠ characterDataMark ++ [')']) :
      StandsFor bare (.ok (.mixed (mixedNames (removeBlanks bare))))
  | children (hEmpty : removeBlanks bare ≠ emptyWord) (hAny : removeBlanks bare ≠ anyWord)
      (hMark : ¬ characterDataMark <+: removeBlanks bare) :
      StandsFor bare ((ContentModel.compile bare).map .children)

theorem standsFor_ruleOf (bare : List Char) : StandsFor bare (ruleOf bare) := by
  unfold ruleOf
  dsimp only
  split
  · next hEmpty => exact .empty hEmpty
  · next hEmpty =>
    split
    · next hAny => exact .any hAny
    · next hAny =>
      split
      · next hText => exact .text hText
      · next hText =>
        split
        · next rest hAfter =>
          have hMark := (after?_eq_some_iff _ _ _).mp hAfter
          exact .mixed ⟨rest, hMark.symm⟩ hText
        · next hAfter => exact .children hEmpty hAny ((after?_eq_none_iff _ _).mp hAfter)

/-- What begins with the character data mark is taken whatever follows the mark. -/
theorem ruleOf_of_mark {bare : List Char} (hMark : characterDataMark <+: removeBlanks bare) :
    ruleOf bare = .ok (if removeBlanks bare = characterDataMark ++ [')'] then .text
      else .mixed (mixedNames (removeBlanks bare))) := by
  have hStands := standsFor_ruleOf bare
  generalize ruleOf bare = outcome at hStands ⊢
  cases hStands with
  | empty hWord => exact absurd (hWord ▸ hMark) (by decide)
  | any hWord => exact absurd (hWord ▸ hMark) (by decide)
  | text hText => rw [if_pos hText]
  | mixed _ hMore => rw [if_neg hMore]
  | children _ _ hNoMark => exact absurd hMark hNoMark

theorem mark_of_ruleOf_eq_mixed {bare : List Char} {listed : List String}
    (h : ruleOf bare = .ok (.mixed listed)) : characterDataMark <+: removeBlanks bare := by
  have hStands := standsFor_ruleOf bare
  generalize ruleOf bare = outcome at hStands h
  cases hStands with
  | mixed hMark => exact hMark
  | children =>
    cases hCompile : ContentModel.compile bare <;> simp [hCompile, Except.map] at h
  | _ => cases h

theorem name_define (name : String) (spec : List Char) (line : Int) :
    (define name spec line).1.name = name := by
  unfold define
  dsimp only
  split <;> rfl

theorem line_define (name : String) (spec : List Char) (line : Int) :
    (define name spec line).1.line = line := by
  unfold define
  dsimp only
  split <;> rfl

theorem spec_define (name : String) (spec : List Char) (line : Int) :
    (define name spec line).1.spec = String.ofList (bareSpec spec) := by
  unfold define
  dsimp only
  split <;> rfl

/-- A definition has the rule that its content model stands for, or no constraint and the fault. -/
theorem define_cases (name : String) (spec : List Char) (line : Int) :
    ((define name spec line).2 = none ∧
        ruleOf (bareSpec spec) = .ok (define name spec line).1.rule) ∨
      ∃ fault, (define name spec line).2 = some fault ∧ (define name spec line).1.rule = .any ∧
        ruleOf (bareSpec spec) = .error fault := by
  unfold define
  dsimp only
  split
  · next hRule => exact .inl ⟨rfl, hRule⟩
  · next hRule => exact .inr ⟨_, rfl, rfl, hRule⟩

theorem define_of_ruleOf_eq_ok {spec : List Char} {rule : ContentRule}
    (h : ruleOf (bareSpec spec) = .ok rule) (name : String) (line : Int) :
    define name spec line = (⟨name, rule, String.ofList (bareSpec spec), line⟩, none) := by
  unfold define
  dsimp only
  rw [h]

end DtdConformance.Dtd
