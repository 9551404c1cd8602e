import Mathlib.Data.List.Basic
import DtdConformance.Proofs.ContentModel.Trim
import DtdConformance.Proofs.Text.Search

/-! # What the states of a compiled model stand for

The automaton of a model has one state for every name that is written in the model, and the start.
Each step leads to a place of the name that is read, so the start is left for good, the states that
are active together all bear the last name, and there are never more of them than the model writes
that name. So no run leaves the tables, and reading a name costs no more than its places.
-/
namespace DtdConformance.ContentModel
set_option autoImplicit false

def Token.name? : Token → Option String
  | .name text => some text
  | .operator _ => none

/-- The names that are written, from left to right. -/
def writtenNames (tokens : List Token) : List String := tokens.filterMap Token.name?

/-- The leaves of an expression are the names of its phrase. -/
theorem Derives.leaves_eq {phrase : Phrase} {tokens : List Token} {e : Expression String}
    (h : Derives phrase tokens e) : e.leaves = writtenNames tokens := by
  induction h with
  | single _ ih => exact ih
  | bar _ _ ihLeft ihRight =>
    rw [Expression.leaves, ihLeft, ihRight, writtenNames, writtenNames, writtenNames,
      List.filterMap_append, List.filterMap_cons_none rfl]
  | nothing => rfl
  | comma _ ih =>
    rw [ih, writtenNames, writtenNames, List.filterMap_append, List.filterMap_cons_none rfl,
      List.filterMap_nil, List.append_nil]
  | next _ _ ihLeft ihRight =>
    rw [Expression.leaves, ihLeft, ihRight, writtenNames, writtenNames, writtenNames,
      List.filterMap_append]
  | bare _ ih => exact ih
  | marked mark _ ih =>
    rw [Expression.leaves, ih, writtenNames, writtenNames, List.filterMap_append,
      List.filterMap_cons_none rfl, List.filterMap_nil, List.append_nil]
  | name text => rfl
  | group _ ih =>
    rw [ih, writtenNames, writtenNames, List.cons_append, List.filterMap_cons_none rfl,
      List.filterMap_append, List.filterMap_cons_none rfl, List.filterMap_nil, List.append_nil]

namespace PositionSet

theorem nodup_toList (s : PositionSet) : s.toList.Nodup := List.nodup_range.filter _

/-- A set of places of one name is no larger than the number of its places. -/
theorem length_toList_le_count {s : PositionSet} {names : List String} {name : String}
    (h : ∀ p ∈ s, 1 ≤ p ∧ names[p - 1]? = some name) : s.toList.length ≤ names.count name := by
  have hPlaces : s.toList ⊆ names.idxsOf name 1 := by
    intro p hMem
    obtain ⟨hPositive, hName⟩ := h p ((mem_toList_iff p s).mp hMem)
    obtain ⟨hBound, hName⟩ := List.getElem?_eq_some_iff.mp hName
    exact List.mem_idxsOf_iff_getElem_sub_pos.mpr ⟨hPositive, hBound, beq_iff_eq.mpr hName⟩
  have hLength := (s.nodup_toList.subperm hPlaces).length_le
  rwa [List.length_idxsOf] at hLength

end PositionSet

namespace Automaton

/-! ## Tables -/

section

variable {automaton : Automaton} {state q : Nat} {name : String} {targets : PositionSet}

theorem mem_successors_iff : q ∈ automaton.successors state name ↔
    q ∈ automaton.followOf state ∧ 1 ≤ q ∧ automaton.names[q - 1]? = some name := by
  rw [successors, PositionSet.mem_inter_iff, mem_bearing_iff, and_congr_right_iff]
  intro _
  constructor
  · rintro ⟨i, rfl, hName⟩
    exact ⟨Nat.le_add_left 1 i, hName⟩
  · rintro ⟨hPositive, hName⟩
    exact ⟨q - 1, (Nat.sub_add_cancel hPositive).symm, hName⟩

/-- The row of a state has an entry for each name that some position after the state bears. -/
theorem mem_transitions_iff : (name, targets) ∈ automaton.transitions state ↔
    targets = automaton.successors state name ∧ ∃ q, q ∈ targets := by
  have hNames : ∀ p, (if p = 0 then none else automaton.names[p - 1]?) = some name ↔
      1 ≤ p ∧ automaton.names[p - 1]? = some name := by
    intro p
    by_cases hStart : p = 0
    · simp [hStart]
    · simp [hStart, Nat.one_le_iff_ne_zero]
  have hListed : name ∈ ((automaton.followOf state).toList.filterMap fun p =>
      if p = 0 then none else automaton.names[p - 1]?).eraseDups ↔
        ∃ q, q ∈ automaton.successors state name := by
    simp only [List.mem_eraseDups, List.mem_filterMap, hNames, PositionSet.mem_toList_iff,
      mem_successors_iff]
  unfold transitions
  dsimp only
  rw [List.mem_map]
  constructor
  · rintro ⟨other, hOther, hEq⟩
    obtain ⟨rfl, rfl⟩ := Prod.mk.inj hEq
    exact ⟨rfl, hListed.mp hOther⟩
  · rintro ⟨rfl, hSome⟩
    exact ⟨name, hListed.mpr hSome, rfl⟩

/-- No name has two entries in one row. -/
theorem nodup_transitions (automaton : Automaton) (state : Nat) :
    ((automaton.transitions state).map Prod.fst).Nodup := by
  have hNames := Text.nodup_eraseDups ((automaton.followOf state).toList.filterMap fun p =>
    if p = 0 then none else automaton.names[p - 1]?)
  simpa [transitions, Function.comp_def] using hNames

/-- A run takes its steps from the rows of the active states. -/
theorem mem_next_iff_transitions {active : PositionSet} : q ∈ automaton.next active name ↔
    ∃ p ∈ active, ∃ targets, (name, targets) ∈ automaton.transitions p ∧ q ∈ targets := by
  rw [mem_next_iff_successors]
  simp only [mem_transitions_iff]
  constructor
  · rintro ⟨p, hActive, hNext⟩
    exact ⟨p, hActive, _, ⟨rfl, q, hNext⟩, hNext⟩
  · rintro ⟨p, hActive, _, ⟨rfl, -⟩, hNext⟩
    exact ⟨p, hActive, hNext⟩

end

/-- What the tables hold of an automaton for the names that a model writes. -/
structure Tabulates (automaton : Automaton) (names : List String) : Prop where
  names_eq : automaton.names.toList = names
  states : automaton.follow.size = names.length + 1
  /-- The start does not follow any state. -/
  follow : ∀ state, ∀ q ∈ automaton.followOf state, 1 ≤ q ∧ q ≤ names.length
  /-- All that may follow a state is found in the row of the state. -/
  complete : ∀ state, ∀ q ∈ automaton.followOf state,
    ∃ name targets, (name, targets) ∈ automaton.transitions state ∧ q ∈ targets
  target : ∀ state name targets, (name, targets) ∈ automaton.transitions state →
    ∀ q ∈ targets, 1 ≤ q ∧ q ≤ names.length ∧ names[q - 1]? = some name
  inhabited : ∀ state name targets, (name, targets) ∈ automaton.transitions state →
    ∃ q, q ∈ targets
  functional : ∀ state, ((automaton.transitions state).map Prod.fst).Nodup
  accepting : ∀ q ∈ automaton.accepting, q ≤ names.length

/-- What a run does that takes its steps from these tables. -/
structure Runs (automaton : Automaton) (names : List String) : Prop where
  step : ∀ active name q, q ∈ automaton.next active name ↔
    ∃ p ∈ active, ∃ targets, (name, targets) ∈ automaton.transitions p ∧ q ∈ targets
  rest : ∀ u v, automaton.accepts (u ++ v) = automaton.acceptsFrom (automaton.activeAfter u) v
  /-- Every state that is looked up has a row. -/
  inRange : ∀ u, ∀ p ∈ automaton.activeAfter u, p < automaton.follow.size
  bears : ∀ u name, ∀ p ∈ automaton.activeAfter (u ++ [name]),
    p ≠ 0 ∧ names[p - 1]? = some name
  bounded : ∀ u name,
    (automaton.activeAfter (u ++ [name])).toList.length ≤ names.count name

theorem tabulates_ofExpression (spec : String) (e : Expression String) :
    (ofExpression spec e).Tabulates e.leaves := by
  have hFollow : ∀ state, ∀ q ∈ (ofExpression spec e).followOf state,
      1 ≤ q ∧ q ≤ e.leaves.length := fun state q hMem =>
    (mem_leaves_marked_iff e q).mp (mem_leaves_of_mem_followOf spec e hMem)
  refine ⟨by simp [ofExpression], by simp [ofExpression, size_foldl_addLink], hFollow, ?_, ?_, ?_,
    nodup_transitions _, ?_⟩
  · intro state q hMem
    obtain ⟨hPositive, hBound⟩ := hFollow state q hMem
    have hPlace : q - 1 < e.leaves.length := by omega
    have hName : (ofExpression spec e).names[q - 1]? = some e.leaves[q - 1] := by
      simp [ofExpression]
    have hNext := mem_successors_iff.mpr ⟨hMem, hPositive, hName⟩
    exact ⟨_, _, mem_transitions_iff.mpr ⟨rfl, q, hNext⟩, hNext⟩
  · intro state name targets hEntry q hMem
    obtain ⟨rfl, -⟩ := mem_transitions_iff.mp hEntry
    obtain ⟨hFollows, hPositive, hName⟩ := mem_successors_iff.mp hMem
    refine ⟨hPositive, (hFollow state q hFollows).2, ?_⟩
    simpa [ofExpression] using hName
  · intro state name targets hEntry
    exact (mem_transitions_iff.mp hEntry).2
  · intro q hMem
    obtain hLast | ⟨rfl, -⟩ := (mem_accepting_iff spec e q).mp hMem
    · exact ((mem_leaves_marked_iff e q).mp (Expression.mem_leaves_of_mem_last hLast)).2
    · exact Nat.zero_le _

/-- Well-formed tables keep every run inside them. -/
theorem Tabulates.runs {automaton : Automaton} {names : List String}
    (h : automaton.Tabulates names) : automaton.Runs names := by
  have hBears : ∀ u name, ∀ p ∈ automaton.activeAfter (u ++ [name]),
      1 ≤ p ∧ p ≤ names.length ∧ names[p - 1]? = some name := by
    intro u name p hActive
    rw [activeAfter, List.foldl_append] at hActive
    obtain ⟨state, -, targets, hEntry, hMem⟩ := mem_next_iff_transitions.mp hActive
    exact h.target state name targets hEntry p hMem
  refine ⟨fun _ _ _ => mem_next_iff_transitions, accepts_append, ?_, ?_, ?_⟩
  · intro u p hActive
    rw [h.states]
    rcases List.eq_nil_or_concat' u with rfl | ⟨front, name, rfl⟩
    · obtain rfl := (PositionSet.mem_singleton_iff p 0).mp hActive
      omega
    · have hBound := (hBears front name p hActive).2.1
      omega
  · intro u name p hActive
    obtain ⟨hPositive, -, hName⟩ := hBears u name p hActive
    exact ⟨Nat.one_le_iff_ne_zero.mp hPositive, hName⟩
  · intro u name
    apply PositionSet.length_toList_le_count
    intro p hActive
    obtain ⟨hPositive, -, hName⟩ := hBears u name p hActive
    exact ⟨hPositive, hName⟩

end Automaton

/-- The automaton of a model has one state more than the model writes names. Every step leads to a
place of the name that is read and none to the start, every entry leads somewhere, and no run looks
up a state that has no row. Behind a name no more states are active than the model writes it. -/
theorem compile_tabulates {spec : List Char} {automaton : Automaton}
    (h : compile spec = .ok automaton) :
    ∃ tokens, tokenize spec = .ok tokens ∧ automaton.Tabulates (writtenNames tokens) ∧
      automaton.Runs (writtenNames tokens) := by
  obtain ⟨tokens, e, hTokens, hExpression, rfl⟩ := exists_expression_of_compile h
  have hTables := Automaton.tabulates_ofExpression (String.ofList spec) e
  rw [(derives_of_ofTokens hExpression).leaves_eq] at hTables
  exact ⟨tokens, hTokens, hTables, hTables.runs⟩

/-- In an ambiguous model a name that is written three times may be at any of its places. -/
theorem compile_tabulates_of_ambiguous :
    ∃ automaton, compile "(a?, (a | b)*)*, a".toList = .ok automaton ∧
      automaton.follow.size = 5 ∧ (automaton.activeAfter ["b", "a"]).toList = [1, 2, 4] ∧
      ∀ u, (automaton.activeAfter (u ++ ["a"])).toList.length ≤ 3 := by
  obtain ⟨automaton, hCompile⟩ :
      ∃ automaton, compile "(a?, (a | b)*)*, a".toList = .ok automaton := ⟨_, rfl⟩
  obtain ⟨tokens, hTokens, hTables, hRuns⟩ := compile_tabulates hCompile
  cases hTokens
  cases hCompile
  exact ⟨_, rfl, hTables.states, by decide +kernel, fun u => hRuns.bounded u "a"⟩

end DtdConformance.ContentModel
