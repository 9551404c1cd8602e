import DtdConformance.Proofs.ContentModel.Recognition

/-! # No state of a compiled model is idle

Every part of an expression has its share in some list that the expression allows. So every state
of the automaton is reached from the start and leads on to an accepting state. While a list is
read, some state is active exactly as long as the list can still be completed to an accepted one.
-/
namespace DtdConformance.ContentModel
set_option autoImplicit false

namespace Expression

variable {α : Type}

/-- An expression and all expressions that it is built from. -/
def parts : Expression α → List (Expression α)
  | empty => [empty]
  | leaf a => [leaf a]
  | sequence left right => sequence left right :: (left.parts ++ right.parts)
  | choice left right => choice left right :: (left.parts ++ right.parts)
  | repetition mark body => repetition mark body :: body.parts

theorem leaf_mem_parts {e : Expression α} {a : α} (h : a ∈ e.leaves) : leaf a ∈ e.parts := by
  induction e with
  | empty => cases h
  | leaf b =>
    obtain rfl : a = b := List.mem_singleton.mp h
    exact List.mem_singleton.mpr rfl
  | sequence left right ihLeft ihRight | choice left right ihLeft ihRight =>
    apply List.mem_cons_of_mem
    rcases List.mem_append.mp h with hLeft | hRight
    · exact List.mem_append_left _ (ihLeft hLeft)
    · exact List.mem_append_right _ (ihRight hRight)
  | repetition mark body ih => exact List.mem_cons_of_mem _ (ih h)

theorem exists_allows (e : Expression α) : ∃ w, Allows e w := by
  induction e with
  | empty => exact ⟨[], .empty⟩
  | leaf a => exact ⟨[a], .leaf a⟩
  | sequence left right ihLeft ihRight =>
    obtain ⟨u, hu⟩ := ihLeft
    obtain ⟨v, hv⟩ := ihRight
    exact ⟨u ++ v, .sequence hu hv⟩
  | choice left right ihLeft _ =>
    obtain ⟨u, hu⟩ := ihLeft
    exact ⟨u, .choiceLeft hu⟩
  | repetition mark body ih =>
    obtain ⟨u, hu⟩ := ih
    exact ⟨u, .once hu⟩

/-- What a part allows is allowed by the whole in the right surroundings. -/
theorem exists_context_of_mem_parts {e part : Expression α} (h : part ∈ e.parts) :
    ∃ u v, ∀ w, Allows part w → Allows e (u ++ w ++ v) := by
  have hWhole (f : Expression α) : ∃ u v, ∀ w, Allows f w → Allows f (u ++ w ++ v) :=
    ⟨[], [], fun w hw => by simpa using hw⟩
  induction e with
  | empty =>
    obtain rfl := List.mem_singleton.mp h
    exact hWhole _
  | leaf a =>
    obtain rfl := List.mem_singleton.mp h
    exact hWhole _
  | sequence left right ihLeft ihRight =>
    rcases List.mem_cons.mp h with rfl | hBelow
    · exact hWhole _
    rcases List.mem_append.mp hBelow with hLeft | hRight
    · -- The other side of a sequence is never without a list of its own.
      obtain ⟨u, v, hContext⟩ := ihLeft hLeft
      obtain ⟨x, hx⟩ := exists_allows right
      refine ⟨u, v ++ x, fun w hw => ?_⟩
      rw [← List.append_assoc]
      exact .sequence (hContext w hw) hx
    · obtain ⟨u, v, hContext⟩ := ihRight hRight
      obtain ⟨x, hx⟩ := exists_allows left
      refine ⟨x ++ u, v, fun w hw => ?_⟩
      rw [List.append_assoc, List.append_assoc, ← List.append_assoc u]
      exact .sequence hx (hContext w hw)
  | choice left right ihLeft ihRight =>
    rcases List.mem_cons.mp h with rfl | hBelow
    · exact hWhole _
    rcases List.mem_append.mp hBelow with hLeft | hRight
    · obtain ⟨u, v, hContext⟩ := ihLeft hLeft
      exact ⟨u, v, fun w hw => .choiceLeft (hContext w hw)⟩
    · obtain ⟨u, v, hContext⟩ := ihRight hRight
      exact ⟨u, v, fun w hw => .choiceRight (hContext w hw)⟩
  | repetition mark body ih =>
    rcases List.mem_cons.mp h with rfl | hBelow
    · exact hWhole _
    · obtain ⟨u, v, hContext⟩ := ih hBelow
      exact ⟨u, v, fun w hw => .once (hContext w hw)⟩

end Expression

namespace Automaton

/-! ## Paths -/

/-- Reading the names takes the automaton from one state to another. -/
inductive Path (automaton : Automaton) : Nat → List String → Nat → Prop
  | here (p : Nat) : Path automaton p [] p
  | step {p q r : Nat} {name : String} {names : List String}
      (hNext : q ∈ automaton.successors p name) (hRest : Path automaton q names r) :
      Path automaton p (name :: names) r

/-- The states that are active when the names have been read. -/
def activeAfter (automaton : Automaton) (names : List String) : PositionSet :=
  names.foldl automaton.next (.singleton 0)

section Paths

variable {automaton : Automaton}

theorem path_nil_iff {p q : Nat} : automaton.Path p [] q ↔ p = q := by
  constructor
  · rintro ⟨⟩
    rfl
  · rintro rfl
    exact .here p

theorem path_cons_iff {p r : Nat} {name : String} {names : List String} :
    automaton.Path p (name :: names) r ↔
      ∃ q ∈ automaton.successors p name, automaton.Path q names r := by
  constructor
  · rintro (_ | ⟨hNext, hRest⟩)
    exact ⟨_, hNext, hRest⟩
  · rintro ⟨q, hNext, hRest⟩
    exact .step hNext hRest

theorem path_append_iff {p r : Nat} {u v : List String} :
    automaton.Path p (u ++ v) r ↔ ∃ q, automaton.Path p u q ∧ automaton.Path q v r := by
  induction u generalizing p with
  | nil => simp only [List.nil_append, path_nil_iff, exists_eq_left']
  | cons name u ih =>
    simp only [List.cons_append, path_cons_iff, ih]
    constructor
    · rintro ⟨s, hNext, q, hFirst, hSecond⟩
      exact ⟨q, ⟨s, hNext, hFirst⟩, hSecond⟩
    · rintro ⟨q, ⟨s, hNext, hFirst⟩, hSecond⟩
      exact ⟨s, hNext, q, hFirst, hSecond⟩

theorem mem_next_iff_successors {active : PositionSet} {name : String} {q : Nat} :
    q ∈ automaton.next active name ↔ ∃ p ∈ active, q ∈ automaton.successors p name := by
  simp only [mem_next_iff, successors, PositionSet.mem_inter_iff]
  constructor
  · rintro ⟨⟨p, hActive, hFollow⟩, hBears⟩
    exact ⟨p, hActive, hFollow, hBears⟩
  · rintro ⟨p, hActive, hFollow, hBears⟩
    exact ⟨⟨p, hActive, hFollow⟩, hBears⟩

theorem mem_foldl_next_iff {active : PositionSet} {names : List String} {q : Nat} :
    q ∈ names.foldl automaton.next active ↔ ∃ p ∈ active, automaton.Path p names q := by
  induction names generalizing active with
  | nil => simp only [List.foldl_nil, path_nil_iff, exists_eq_right]
  | cons name names ih =>
    rw [List.foldl_cons, ih]
    simp only [mem_next_iff_successors, path_cons_iff]
    constructor
    · rintro ⟨r, ⟨p, hActive, hNext⟩, hRest⟩
      exact ⟨p, hActive, r, hNext, hRest⟩
    · rintro ⟨p, hActive, r, hNext, hRest⟩
      exact ⟨r, ⟨p, hActive, hNext⟩, hRest⟩

theorem mem_activeAfter_iff {names : List String} {q : Nat} :
    q ∈ automaton.activeAfter names ↔ automaton.Path 0 names q := by
  rw [activeAfter, mem_foldl_next_iff]
  simp only [PositionSet.mem_singleton_iff, exists_eq_left]

/-- A run accepts when a path leads from an active state to an accepting one. -/
theorem acceptsFrom_iff_path {active : PositionSet} {names : List String} :
    automaton.acceptsFrom active names = true ↔
      ∃ p ∈ active, ∃ q ∈ automaton.accepting, automaton.Path p names q := by
  induction names generalizing active with
  | nil =>
    simp only [acceptsFrom, Bool.not_eq_true', PositionSet.isEmpty_eq_false_iff,
      PositionSet.mem_inter_iff, path_nil_iff, exists_eq_right']
  | cons name names ih =>
    simp only [acceptsFrom, Bool.and_eq_true, Bool.not_eq_true',
      PositionSet.isEmpty_eq_false_iff, ih, mem_next_iff_successors, path_cons_iff]
    constructor
    · rintro ⟨_, r, ⟨p, hActive, hNext⟩, q, hAccepting, hRest⟩
      exact ⟨p, hActive, q, hAccepting, r, hNext, hRest⟩
    · rintro ⟨p, hActive, q, hAccepting, r, hNext, hRest⟩
      exact ⟨⟨r, p, hActive, hNext⟩, r, ⟨p, hActive, hNext⟩, q, hAccepting, hRest⟩

/-- When a part of a list has been read, what is accepted of the rest is decided by the states that
are active then. -/
theorem accepts_append (u v : List String) :
    automaton.accepts (u ++ v) = automaton.acceptsFrom (automaton.activeAfter u) v := by
  rw [Bool.eq_iff_iff, accepts, acceptsFrom_iff_path, acceptsFrom_iff_path]
  simp only [PositionSet.mem_singleton_iff, exists_eq_left, mem_activeAfter_iff, path_append_iff]
  constructor
  · rintro ⟨q, hAccepting, r, hFirst, hSecond⟩
    exact ⟨r, hFirst, q, hAccepting, hSecond⟩
  · rintro ⟨r, hFirst, q, hAccepting, hSecond⟩
    exact ⟨q, hAccepting, r, hFirst, hSecond⟩

/-- When every state that is reached leads on to an accepting one, some state is active exactly as
long as the names read begin an accepted list. -/
theorem isEmpty_activeAfter_iff
    (hLive : ∀ u p, automaton.Path 0 u p → ∃ v, ∃ q ∈ automaton.accepting, automaton.Path p v q)
    (names : List String) : (automaton.activeAfter names).isEmpty = false ↔
      ∃ v, automaton.accepts (names ++ v) = true := by
  simp only [PositionSet.isEmpty_eq_false_iff, accepts_append, acceptsFrom_iff_path]
  constructor
  · rintro ⟨p, hActive⟩
    obtain ⟨v, q, hAccepting, hPath⟩ := hLive names p (mem_activeAfter_iff.mp hActive)
    exact ⟨v, p, hActive, q, hAccepting, hPath⟩
  · rintro ⟨v, p, hActive, _⟩
    exact ⟨p, hActive⟩

end Paths

/-! ## States of a model -/

section OfExpression

variable (spec : String) (e : Expression String)

theorem mem_successors_of_awaits {p q : Nat} {v : List Nat} (h : Awaits e p (q :: v)) :
    q ∈ (ofExpression spec e).successors p (nameAt e q) ∧ Awaits e q v := by
  obtain ⟨hFollow, hRest⟩ := (awaits_cons_iff spec e p q v).mp h
  have hLeaf := mem_leaves_of_mem_followOf spec e hFollow
  refine ⟨?_, hRest⟩
  rw [successors, PositionSet.mem_inter_iff]
  exact ⟨hFollow, (mem_bearing_ofExpression_iff spec e hLeaf _).mpr rfl⟩

/-- A list of positions that may come after a state is a path to an accepting state. -/
theorem exists_path_of_awaits {p : Nat} {v : List Nat} (h : Awaits e p v) :
    ∃ q ∈ (ofExpression spec e).accepting, (ofExpression spec e).Path p (v.map (nameAt e)) q := by
  induction v generalizing p with
  | nil => exact ⟨p, (awaits_nil_iff spec e p).mp h, .here p⟩
  | cons r v ih =>
    obtain ⟨hNext, hRest⟩ := mem_successors_of_awaits spec e h
    obtain ⟨q, hAccepting, hPath⟩ := ih hRest
    exact ⟨q, hAccepting, .step hNext hPath⟩

/-- Such a list passes through each of its positions. -/
theorem path_of_awaits_append {p q : Nat} {u v : List Nat} (h : Awaits e p (u ++ q :: v)) :
    (ofExpression spec e).Path p ((u ++ [q]).map (nameAt e)) q ∧ Awaits e q v := by
  induction u generalizing p with
  | nil =>
    obtain ⟨hNext, hRest⟩ := mem_successors_of_awaits spec e h
    exact ⟨.step hNext (.here q), hRest⟩
  | cons r u ih =>
    obtain ⟨hNext, hBehind⟩ := mem_successors_of_awaits spec e h
    obtain ⟨hPath, hRest⟩ := ih hBehind
    exact ⟨.step hNext hPath, hRest⟩

theorem exists_awaits {p : Nat} (h : p ≤ e.leaves.length) :
    ∃ u v, (ofExpression spec e).Path 0 u p ∧ Awaits e p v := by
  by_cases hStart : p = 0
  · subst hStart
    obtain ⟨v, hv⟩ := Expression.exists_allows (marked e)
    exact ⟨[], v, .here 0, by rwa [Awaits, if_pos rfl]⟩
  · have hLeaf : p ∈ (marked e).leaves := (mem_leaves_marked_iff e p).mpr (by omega)
    obtain ⟨u, v, hContext⟩ :=
      Expression.exists_context_of_mem_parts (Expression.leaf_mem_parts hLeaf)
    have hAwaits : Awaits e 0 (u ++ p :: v) := by
      have hAllows := hContext [p] (.leaf p)
      rw [List.append_assoc] at hAllows
      rwa [Awaits, if_pos rfl]
    obtain ⟨hPath, hRest⟩ := path_of_awaits_append spec e hAwaits
    exact ⟨_, v, hPath, hRest⟩

theorem le_length_of_path {p q : Nat} {names : List String} (hStart : p ≤ e.leaves.length)
    (hPath : (ofExpression spec e).Path p names q) : q ≤ e.leaves.length := by
  induction hPath with
  | here => exact hStart
  | step hNext _ ih =>
    obtain ⟨hFollow, _⟩ := (PositionSet.mem_inter_iff ..).mp hNext
    have hLeaf := mem_leaves_of_mem_followOf spec e hFollow
    exact ih ((mem_leaves_marked_iff e _).mp hLeaf).2

/-- What holds of an automaton without idle states that belongs to an expression. -/
structure Trim (automaton : Automaton) (e : Expression String) : Prop where
  /-- Every state lies on a run from the start to an accepting state. -/
  states : ∀ p ≤ automaton.positionCount, ∃ u v, ∃ q ∈ automaton.accepting,
    automaton.Path 0 u p ∧ automaton.Path p v q
  rest : ∀ u v, automaton.accepts (u ++ v) = automaton.acceptsFrom (automaton.activeAfter u) v
  active : ∀ names, (automaton.activeAfter names).isEmpty = false ↔
    ∃ v, automaton.accepts (names ++ v) = true
  /-- A run breaks off at a name exactly when no list that begins with the names read is
  accepted. -/
  breaksOff : ∀ names name,
    (automaton.next (automaton.activeAfter names) name).isEmpty = true ↔
      ∀ v, automaton.accepts (names ++ name :: v) = false
  /-- Every part of the expression, such as an alternative, has its share in accepted lists. -/
  parts : ∀ part ∈ e.parts, ∃ u v, ∀ names ∈ part.language,
    automaton.accepts (u ++ names ++ v) = true

theorem trim_ofExpression : Trim (ofExpression spec e) e := by
  have hStates : ∀ p ≤ e.leaves.length, ∃ u v, ∃ q ∈ (ofExpression spec e).accepting,
      (ofExpression spec e).Path 0 u p ∧ (ofExpression spec e).Path p v q := by
    intro p hp
    obtain ⟨u, v, hPath, hAwaits⟩ := exists_awaits spec e hp
    obtain ⟨q, hAccepting, hRest⟩ := exists_path_of_awaits spec e hAwaits
    exact ⟨u, _, q, hAccepting, hPath, hRest⟩
  have hLive : ∀ u p, (ofExpression spec e).Path 0 u p →
      ∃ v, ∃ q ∈ (ofExpression spec e).accepting, (ofExpression spec e).Path p v q := by
    intro u p hPath
    have hBound := le_length_of_path spec e (Nat.zero_le _) hPath
    obtain ⟨_, v, q, hAccepting, _, hRest⟩ := hStates p hBound
    exact ⟨v, q, hAccepting, hRest⟩
  have hActive := isEmpty_activeAfter_iff hLive
  exact {
    states := by
      intro p hp
      exact hStates p (by simpa [positionCount, ofExpression] using hp)
    rest := accepts_append
    active := hActive
    breaksOff := by
      intro names name
      have hNames := hActive (names ++ [name])
      rw [activeAfter, List.foldl_append, ← activeAfter] at hNames
      simp only [List.foldl_cons, List.foldl_nil, List.append_assoc, List.singleton_append]
        at hNames
      rw [← Bool.not_eq_false, hNames, not_exists]
      simp only [Bool.not_eq_true]
    parts := by
      intro part hPart
      obtain ⟨u, v, hContext⟩ := Expression.exists_context_of_mem_parts hPart
      refine ⟨u, v, fun names hNames => ?_⟩
      rw [accepts_ofExpression_iff, Expression.mem_language_iff]
      exact hContext names ((Expression.mem_language_iff part names).mp hNames) }

end OfExpression

end Automaton

/-- The automaton of a compiled model has no idle state, and no part of the expression that the
model derives is idle. -/
theorem compile_trim (spec : List Char) (automaton : Automaton)
    (hCompile : compile spec = .ok automaton) :
    ∃ tokens e, tokenize spec = .ok tokens ∧ Derives .choice tokens e ∧ automaton.Trim e := by
  obtain ⟨tokens, e, hTokens, hExpression, rfl⟩ := exists_expression_of_compile hCompile
  exact ⟨tokens, e, hTokens, derives_of_ofTokens hExpression,
    Automaton.trim_ofExpression (String.ofList spec) e⟩

/-- Both alternatives begin with the same name, so two states are active after it. The second
alternative may be absent, and a list that ends with it is still to be completed. -/
theorem compile_trim_of_shared_beginning :
    let spec := "((a,b)|(a,c?)*),d".toList
    ∃ automaton, compile spec = .ok automaton ∧ automaton.positionCount = 5 ∧
      (∃ u v, ∃ q ∈ automaton.accepting, automaton.Path 0 u 4 ∧ automaton.Path 4 v q) ∧
      (automaton.activeAfter ["a"]).toList = [1, 3] ∧
      (∃ v, automaton.accepts ("a" :: "c" :: v) = true) ∧
      ∀ v, automaton.accepts ("a" :: "b" :: "c" :: v) = false := by
  intro spec
  obtain ⟨automaton, hCompile⟩ : ∃ automaton, compile spec = .ok automaton := ⟨_, rfl⟩
  obtain ⟨_, _, _, _, hTrim⟩ := compile_trim spec automaton hCompile
  have hCount : automaton.positionCount = 5 := by
    cases hCompile
    decide
  refine ⟨automaton, hCompile, hCount, hTrim.states 4 (by omega), ?_, ?_, ?_⟩
  · cases hCompile
    decide
  · apply (hTrim.active ["a", "c"]).mp
    cases hCompile
    decide
  · apply (hTrim.breaksOff ["a", "b"] "c").mp
    cases hCompile
    decide

end DtdConformance.ContentModel
