import DtdConformance.Text.LineIndex

/-! # Lines by counting

The line of an offset is one more than the number of line feeds that stand before it.
-/
namespace DtdConformance.Text
set_option autoImplicit false

theorem lt_of_mem_startsAfter {base start : Nat} {cs : List Char}
    (h : start ∈ startsAfter base cs) : base < start := by
  induction cs generalizing base with
  | nil => cases h
  | cons c cs ih =>
    simp only [startsAfter] at h
    split at h
    · rcases List.mem_cons.mp h with rfl | hRest
      · omega
      · have := ih hRest
        omega
    · have := ih h
      omega

theorem countP_startsAfter (base n : Nat) (cs : List Char) :
    (startsAfter base cs).countP (fun start => decide (start ≤ base + n)) =
      (cs.take n).count '\n' := by
  induction cs generalizing base n with
  | nil => simp [startsAfter]
  | cons c cs ih =>
    cases n with
    | zero =>
      rw [List.take_zero, List.count_nil, List.countP_eq_zero]
      intro start hStart
      have := lt_of_mem_startsAfter hStart
      simp only [decide_eq_true_eq]
      omega
    | succ n =>
      have hRest := ih (base + 1) n
      rw [Nat.add_right_comm base 1 n, Nat.add_assoc] at hRest
      simp only [startsAfter, List.take_succ_cons]
      split
      · next hFeed =>
        subst hFeed
        rw [List.countP_cons_of_pos (by simp), List.count_cons_self, hRest]
      · next hNoFeed =>
        rw [List.count_cons_of_ne hNoFeed, hRest]

theorem LineIndex.lineAt_ofText (cs : List Char) (offset : Nat) :
    (ofText cs).lineAt offset = 1 + (cs.take offset).count '\n' := by
  cases offset with
  | zero => rfl
  | succ n =>
    have hCount := countP_startsAfter 0 (n + 1) cs
    rw [Nat.zero_add] at hCount
    rw [lineAt, if_neg (by omega), ofText, List.countP_cons_of_pos (by simp; omega), ← hCount,
      Nat.add_comm]
    simp only [Int.ofNat_le]

theorem LineIndex.lineAt_mono (cs : List Char) {offset later : Nat} (h : offset ≤ later) :
    (ofText cs).lineAt offset ≤ (ofText cs).lineAt later := by
  have hTake : (cs.take offset).Sublist (cs.take later) := (List.take_prefix_take_left h).sublist
  have hCount := hTake.count_le '\n'
  rw [lineAt_ofText, lineAt_ofText]
  omega

theorem LineIndex.lineAt_bounds (cs : List Char) (offset : Nat) :
    1 ≤ (ofText cs).lineAt offset ∧ (ofText cs).lineAt offset ≤ cs.count '\n' + 1 := by
  have hCount := (List.take_sublist offset cs).count_le '\n'
  rw [lineAt_ofText]
  omega

theorem LineIndex.lineAt_length (before rest : List Char) :
    (ofText (before ++ rest)).lineAt before.length = 1 + before.count '\n' := by
  rw [lineAt_ofText, List.take_left]

end DtdConformance.Text
