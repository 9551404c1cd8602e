import DtdConformance.Proofs.ContentModel.Numbering

/-! # States and steps

What the tables of an automaton hold. The positions that may follow a state are those that follow
it in the numbered expression, and a step keeps those of them that bear the name read.
-/
namespace DtdConformance.ContentModel
set_option autoImplicit false

namespace Automaton

/-- What may follow each of a list of sources is enlarged. -/
theorem mem_foldl_modify_iff (sources : List Nat) (targets : PositionSet)
    (follow : Array PositionSet) (p q : Nat) (hBound : p < follow.size) :
    q ∈ (sources.foldl (fun follow p => follow.modify p (·.union targets)) follow).getD p .empty ↔
      q ∈ follow.getD p .empty ∨ p ∈ sources ∧ q ∈ targets := by
  induction sources generalizing follow with
  | nil => simp
  | cons source sources ih =>
    rw [List.foldl_cons, ih _ (by simpa using hBound)]
    by_cases hSource : source = p
    · subst hSource
      simp only [Array.getD_eq_getD_getElem?, Array.getElem?_modify, if_true,
        Array.getElem?_eq_getElem hBound, Option.map_some, Option.getD_some,
        PositionSet.mem_union_iff, List.mem_cons, true_or, true_and]
      exact ⟨fun h => h.elim id fun hAgain => Or.inr hAgain.2, Or.inl⟩
    · simp [Array.getElem?_modify, hSource, Ne.symm hSource]

theorem size_foldl_modify (sources : List Nat) (targets : PositionSet)
    (follow : Array PositionSet) :
    (sources.foldl (fun follow p => follow.modify p (·.union targets)) follow).size =
      follow.size := by
  induction sources generalizing follow with
  | nil => rfl
  | cons source sources ih => rw [List.foldl_cons, ih, Array.size_modify]

theorem mem_foldl_addLink_iff (links : List (PositionSet × PositionSet))
    (follow : Array PositionSet) (p q : Nat) (hBound : p < follow.size) :
    q ∈ (links.foldl addLink follow).getD p .empty ↔
      q ∈ follow.getD p .empty ∨ ∃ link ∈ links, p ∈ link.1 ∧ q ∈ link.2 := by
  induction links generalizing follow with
  | nil => simp
  | cons link links ih =>
    have hSize : (addLink follow link).size = follow.size := size_foldl_modify ..
    rw [List.foldl_cons, ih _ (hSize ▸ hBound), addLink,
      mem_foldl_modify_iff _ _ _ _ _ hBound, PositionSet.mem_toList_iff]
    simp [or_assoc]

theorem size_foldl_addLink (links : List (PositionSet × PositionSet))
    (follow : Array PositionSet) : (links.foldl addLink follow).size = follow.size := by
  induction links generalizing follow with
  | nil => rfl
  | cons link links ih => rw [List.foldl_cons, ih, addLink, size_foldl_modify]

section OfExpression

variable (spec : String) (e : Expression String)

/-- The expression whose leaves are the positions of the automaton. -/
def marked : Expression Nat := (e.numbered 1).1

theorem mem_leaves_marked_iff (p : Nat) :
    p ∈ (marked e).leaves ↔ 1 ≤ p ∧ p ≤ e.leaves.length := by
  rw [marked, Expression.leaves_numbered, List.mem_range'_1]
  omega

theorem mem_followOf_zero_iff (q : Nat) :
    q ∈ (ofExpression spec e).followOf 0 ↔ q ∈ (marked e).first := by
  simp [followOf, ofExpression, marked, size_foldl_addLink]

theorem mem_followOf_iff (p q : Nat) (hStart : p ≠ 0) :
    q ∈ (ofExpression spec e).followOf p ↔ (marked e).Follows p q := by
  by_cases hBound : p < e.leaves.length + 1
  · have hLinks := mem_foldl_addLink_iff (marked e).links
      (Array.replicate (e.leaves.length + 1) .empty) p q (by simpa using hBound)
    simpa [followOf, ofExpression, marked, Ne.symm hStart, Array.getElem?_replicate, hBound,
      Expression.Follows] using hLinks
  · have hNone : ¬ (marked e).Follows p q := by
      intro hFollows
      have hLeaf := (mem_leaves_marked_iff e p).mp (Expression.mem_leaves_of_follows hFollows).1
      omega
    simp [followOf, ofExpression, hNone, size_foldl_addLink, hBound]

theorem mem_accepting_iff (p : Nat) : p ∈ (ofExpression spec e).accepting ↔
    p ∈ (marked e).last ∨ p = 0 ∧ (marked e).nullable = true := by
  unfold ofExpression marked
  dsimp only
  split
  · next hNullable => simp [hNullable, or_comm]
  · next hNullable => simp [hNullable]

end OfExpression

theorem mem_foldl_bearing_iff (names : List String) (name : String) (start p : Nat)
    (found : PositionSet) :
    p ∈ (names.zipIdx start).foldl (fun found (other, i) =>
        if other = name then found.insert (i + 1) else found) found ↔
      p ∈ found ∨ ∃ i, p = start + i + 1 ∧ names[i]? = some name := by
  induction names generalizing start found with
  | nil => simp
  | cons other names ih =>
    have hHere : p ∈ (if other = name then found.insert (start + 1) else found) ↔
        p ∈ found ∨ other = name ∧ p = start + 1 := by
      split
      · next hOther => simp [hOther, or_comm]
      · next hOther => simp [hOther]
    rw [List.zipIdx_cons, List.foldl_cons, ih]
    dsimp only
    rw [hHere]
    constructor
    · rintro ((hFound | ⟨hOther, hPosition⟩) | ⟨i, hPosition, hName⟩)
      · exact Or.inl hFound
      · exact Or.inr ⟨0, hPosition, by simp [hOther]⟩
      · exact Or.inr ⟨i + 1, by omega, by simpa using hName⟩
    · rintro (hFound | ⟨i, hPosition, hName⟩)
      · exact Or.inl (Or.inl hFound)
      · cases i with
        | zero => exact Or.inl (Or.inr ⟨by simpa using hName, hPosition⟩)
        | succ i => exact Or.inr ⟨i, by omega, by simpa using hName⟩

theorem mem_bearing_iff (automaton : Automaton) (name : String) (p : Nat) :
    p ∈ automaton.bearing name ↔ ∃ i, p = i + 1 ∧ automaton.names[i]? = some name := by
  rw [bearing, mem_foldl_bearing_iff]
  simp

theorem mem_foldl_union_iff (automaton : Automaton) (states : List Nat) (reached : PositionSet)
    (q : Nat) :
    q ∈ states.foldl (fun (reached : PositionSet) state =>
        reached.union (automaton.followOf state)) reached ↔
      q ∈ reached ∨ ∃ p ∈ states, q ∈ automaton.followOf p := by
  induction states generalizing reached with
  | nil => simp
  | cons state states ih =>
    rw [List.foldl_cons, ih]
    simp [or_assoc]

theorem mem_next_iff (automaton : Automaton) (active : PositionSet) (name : String) (q : Nat) :
    q ∈ automaton.next active name ↔
      (∃ p ∈ active, q ∈ automaton.followOf p) ∧ q ∈ automaton.bearing name := by
  rw [next, PositionSet.mem_inter_iff, mem_foldl_union_iff]
  simp [PositionSet.mem_toList_iff]

end Automaton

end DtdConformance.ContentModel
