import DtdConformance.Proofs.ContentModel.Refusal
import DtdConformance.Proofs.ContentModel.Transition

/-! # What the automaton of a model accepts

Each state of the automaton stands for the lists that may come after it. A run holds the states that
the names read so far may lead to, and it accepts exactly the lists of the language.
-/
namespace DtdConformance.ContentModel
set_option autoImplicit false

namespace Automaton

section Runs

variable (spec : String) (e : Expression String)

/-- The lists of positions that may come after a state. -/
def Awaits (p : Nat) (v : List Nat) : Prop :=
  if p = 0 then (marked e).Allows v else (marked e).Completes p v

def nameAt (p : Nat) : String := (e.leaves[p - 1]?).getD ""

theorem awaits_nil_iff (p : Nat) : Awaits e p [] ↔ p ∈ (ofExpression spec e).accepting := by
  rw [Awaits, mem_accepting_iff]
  split
  · next hStart =>
    subst hStart
    have hLast : 0 ∉ (marked e).last := by
      intro hLast
      have hLeaf := (mem_leaves_marked_iff e 0).mp (Expression.mem_leaves_of_mem_last hLast)
      omega
    simp [Expression.allows_nil_iff, hLast]
  · next hStart => simp [Expression.completes_nil_iff, hStart]

theorem mem_leaves_of_mem_followOf {p q : Nat} (h : q ∈ (ofExpression spec e).followOf p) :
    q ∈ (marked e).leaves := by
  by_cases hStart : p = 0
  · subst hStart
    exact Expression.mem_leaves_of_mem_first ((mem_followOf_zero_iff spec e q).mp h)
  · exact (Expression.mem_leaves_of_follows ((mem_followOf_iff spec e p q hStart).mp h)).2

/-- A list after a state begins with a position that may follow the state. -/
theorem awaits_cons_iff (p q : Nat) (v : List Nat) : Awaits e p (q :: v) ↔
    q ∈ (ofExpression spec e).followOf p ∧ Awaits e q v := by
  have hLinear : (marked e).Linear := Expression.linear_numbered e 1
  have hNext : q ∈ (ofExpression spec e).followOf p →
      (Awaits e q v ↔ (marked e).Completes q v) := by
    intro hFollow
    have hLeaf := (mem_leaves_marked_iff e q).mp (mem_leaves_of_mem_followOf spec e hFollow)
    rw [Awaits, if_neg (by omega)]
  rw [and_congr_right hNext, Awaits]
  split
  · next hStart =>
    subst hStart
    rw [Expression.allows_cons_iff hLinear, mem_followOf_zero_iff]
  · next hStart => rw [Expression.completes_cons_iff hLinear, mem_followOf_iff spec e p q hStart]

theorem mem_bearing_ofExpression_iff {p : Nat} (hLeaf : p ∈ (marked e).leaves) (name : String) :
    p ∈ (ofExpression spec e).bearing name ↔ nameAt e p = name := by
  have hBound := (mem_leaves_marked_iff e p).mp hLeaf
  have hLess : p - 1 < e.leaves.length := by omega
  rw [mem_bearing_iff, nameAt, List.getElem?_eq_getElem hLess, Option.getD_some]
  simp only [ofExpression, List.getElem?_toArray]
  constructor
  · rintro ⟨i, rfl, hName⟩
    rw [Nat.add_sub_cancel, List.getElem?_eq_getElem hLess] at *
    exact Option.some.inj hName
  · intro hName
    exact ⟨p - 1, by omega, by rw [List.getElem?_eq_getElem hLess, hName]⟩

/-- A run accepts from a set of states what may come after one of them. -/
theorem acceptsFrom_eq_true_iff (active : PositionSet) (names : List String) :
    (ofExpression spec e).acceptsFrom active names = true ↔
      ∃ p ∈ active, ∃ v, Awaits e p v ∧ v.map (nameAt e) = names := by
  induction names generalizing active with
  | nil =>
    simp only [acceptsFrom, Bool.not_eq_true', PositionSet.isEmpty_eq_false_iff,
      PositionSet.mem_inter_iff, List.map_eq_nil_iff, ← awaits_nil_iff, exists_eq_right]
  | cons name names ih =>
    simp only [acceptsFrom, Bool.and_eq_true, Bool.not_eq_true',
      PositionSet.isEmpty_eq_false_iff, ih]
    constructor
    · rintro ⟨_, q, hReached, v, hAwaits, rfl⟩
      obtain ⟨⟨p, hActive, hFollow⟩, hBears⟩ := (mem_next_iff ..).mp hReached
      have hLeaf := mem_leaves_of_mem_followOf spec e hFollow
      have hName := (mem_bearing_ofExpression_iff spec e hLeaf name).mp hBears
      exact ⟨p, hActive, q :: v, (awaits_cons_iff spec e p q v).mpr ⟨hFollow, hAwaits⟩,
        by rw [List.map_cons, hName]⟩
    · rintro ⟨p, hActive, v, hAwaits, hNames⟩
      cases v with
      | nil => cases hNames
      | cons q v =>
        obtain ⟨hName, hNames⟩ := List.cons.inj hNames
        obtain ⟨hFollow, hAwaits⟩ := (awaits_cons_iff spec e p q v).mp hAwaits
        have hLeaf := mem_leaves_of_mem_followOf spec e hFollow
        have hBears := (mem_bearing_ofExpression_iff spec e hLeaf name).mpr hName
        have hReached := (mem_next_iff (ofExpression spec e) active name q).mpr
          ⟨⟨p, hActive, hFollow⟩, hBears⟩
        exact ⟨⟨q, hReached⟩, q, hReached, v, hAwaits, hNames⟩

theorem map_nameAt_marked : (marked e).map (nameAt e) = e := by
  apply Expression.map_numbered
  intro i name hLeaf
  rw [nameAt, Nat.add_sub_cancel_left, hLeaf, Option.getD_some]

theorem accepts_ofExpression_iff (names : List String) :
    (ofExpression spec e).accepts names = true ↔ names ∈ e.language := by
  rw [accepts, acceptsFrom_eq_true_iff, Expression.mem_language_iff]
  conv_rhs => rw [← map_nameAt_marked e, Expression.allows_map_iff]
  simp [Awaits]

end Runs

end Automaton

/-! ## Compiled models -/

/-- The child lists that a content model allows as it is written. -/
def Permits (spec : List Char) (names : List String) : Prop :=
  ∃ tokens e, tokenize spec = .ok tokens ∧ Derives .choice tokens e ∧ names ∈ e.language

theorem exists_expression_of_compile {spec : List Char} {automaton : Automaton}
    (h : compile spec = .ok automaton) :
    ∃ tokens e, tokenize spec = .ok tokens ∧ Expression.ofTokens tokens = .ok e ∧
      automaton = .ofExpression (String.ofList spec) e := by
  unfold compile at h
  cases hTokens : tokenize spec with
  | error fault => simp [hTokens, bind, Except.bind] at h
  | ok tokens =>
    cases hExpression : Expression.ofTokens tokens with
    | error refusal => simp [hTokens, hExpression, bind, Except.bind] at h
    | ok e =>
      simp [hTokens, hExpression, bind, Except.bind] at h
      exact ⟨tokens, e, rfl, hExpression, h.symm⟩

theorem accepts_iff_permits_of_compile {spec : List Char} {automaton : Automaton}
    (h : compile spec = .ok automaton) (names : List String) :
    automaton.accepts names = true ↔ Permits spec names := by
  obtain ⟨tokens, e, hTokens, hExpression, rfl⟩ := exists_expression_of_compile h
  rw [Automaton.accepts_ofExpression_iff]
  constructor
  · exact fun hMem => ⟨tokens, e, hTokens, derives_of_ofTokens hExpression, hMem⟩
  · rintro ⟨others, f, hOthers, hDerives, hMem⟩
    cases hTokens.symm.trans hOthers
    rwa [eq_of_derives_of_ofTokens hExpression hDerives] at hMem

/-- The tokens of a compiled model derive one expression, and the automaton accepts exactly the
lists in the language of this expression. -/
theorem compile_recognizes (spec : List Char) (automaton : Automaton)
    (hCompile : compile spec = .ok automaton) :
    ∃ tokens e, tokenize spec = .ok tokens ∧ Derives .choice tokens e ∧
      (∀ f, Derives .choice tokens f → f = e) ∧
      ∀ names, automaton.accepts names = true ↔ names ∈ e.language := by
  obtain ⟨tokens, e, hTokens, hExpression, rfl⟩ := exists_expression_of_compile hCompile
  exact ⟨tokens, e, hTokens, derives_of_ofTokens hExpression,
    fun f hDerives => eq_of_derives_of_ofTokens hExpression hDerives,
    Automaton.accepts_ofExpression_iff (String.ofList spec) e⟩

/-- An ambiguous model with an optional item under a star accepts a list that needs both. -/
theorem compile_recognizes_ambiguous :
    ∃ automaton tokens e,
      compile ['(', 'a', '?', ',', 'b', '*', ')', '*'] = .ok automaton ∧
      tokenize ['(', 'a', '?', ',', 'b', '*', ')', '*'] = .ok tokens ∧
      Derives .choice tokens e ∧ ["a", "a", "b", "b", "a"] ∈ e.language ∧
      ["c"] ∉ e.language := by
  obtain ⟨automaton, hCompile⟩ :
      ∃ automaton, compile ['(', 'a', '?', ',', 'b', '*', ')', '*'] = .ok automaton :=
    ⟨_, rfl⟩
  obtain ⟨tokens, e, hTokens, hDerives, _, hAccepts⟩ := compile_recognizes _ automaton hCompile
  refine ⟨automaton, tokens, e, hCompile, hTokens, hDerives, (hAccepts _).mp ?_, ?_⟩
  · cases hCompile
    decide
  · rw [← hAccepts]
    cases hCompile
    decide

end DtdConformance.ContentModel
