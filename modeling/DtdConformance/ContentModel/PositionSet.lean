/-! # Sets of positions

A finite set of natural numbers, kept as the bits of one number. Two sets with the same members
are equal.
-/
namespace DtdConformance.ContentModel
set_option autoImplicit false

structure PositionSet where
  bits : Nat
  deriving DecidableEq

namespace PositionSet

instance : Membership Nat PositionSet := ⟨fun s p => s.bits.testBit p = true⟩

theorem mem_def (p : Nat) (s : PositionSet) : p ∈ s ↔ s.bits.testBit p = true := Iff.rfl

instance (p : Nat) (s : PositionSet) : Decidable (p ∈ s) :=
  inferInstanceAs (Decidable (s.bits.testBit p = true))

@[ext] theorem ext {s t : PositionSet} (h : ∀ p, p ∈ s ↔ p ∈ t) : s = t := by
  cases s with
  | mk a =>
    cases t with
    | mk b =>
      simp only [mk.injEq]
      exact Nat.eq_of_testBit_eq fun i => Bool.eq_iff_iff.mpr (h i)

def empty : PositionSet := ⟨0⟩

def singleton (p : Nat) : PositionSet := ⟨1 <<< p⟩

def union (s t : PositionSet) : PositionSet := ⟨s.bits ||| t.bits⟩

def inter (s t : PositionSet) : PositionSet := ⟨s.bits &&& t.bits⟩

def isEmpty (s : PositionSet) : Bool := s.bits == 0

def insert (p : Nat) (s : PositionSet) : PositionSet := (singleton p).union s

@[simp] theorem not_mem_empty (p : Nat) : p ∉ empty := by simp [mem_def, empty]

@[simp] theorem mem_singleton_iff (p q : Nat) : p ∈ singleton q ↔ p = q := by
  simp only [mem_def, singleton, Nat.testBit_shiftLeft, Bool.and_eq_true, decide_eq_true_eq,
    Nat.testBit_one_eq_true_iff_self_eq_zero]
  omega

@[simp] theorem mem_union_iff (p : Nat) (s t : PositionSet) : p ∈ s.union t ↔ p ∈ s ∨ p ∈ t := by
  simp [mem_def, union]

@[simp] theorem mem_inter_iff (p : Nat) (s t : PositionSet) : p ∈ s.inter t ↔ p ∈ s ∧ p ∈ t := by
  simp [mem_def, inter]

@[simp] theorem mem_insert_iff (p q : Nat) (s : PositionSet) :
    p ∈ insert q s ↔ p = q ∨ p ∈ s := by
  simp [insert]

theorem isEmpty_eq_false_iff (s : PositionSet) : s.isEmpty = false ↔ ∃ p, p ∈ s := by
  constructor
  · intro h
    apply Classical.byContradiction
    intro hNone
    have hEmpty : s = .empty := by
      ext p
      simpa using fun hMem => hNone ⟨p, hMem⟩
    simp [hEmpty, isEmpty, empty] at h
  · rintro ⟨p, hMem⟩
    cases hEmpty : s.isEmpty with
    | false => rfl
    | true =>
      have hBits : s.bits = 0 := by simpa [isEmpty] using hEmpty
      simp [mem_def, hBits] at hMem

def toList (s : PositionSet) : List Nat :=
  (List.range (Nat.log2 s.bits + 1)).filter (fun p => decide (p ∈ s))

theorem mem_toList_iff (p : Nat) (s : PositionSet) : p ∈ s.toList ↔ p ∈ s := by
  simp only [toList, List.mem_filter, List.mem_range, decide_eq_true_eq, and_iff_right_iff_imp]
  intro hMem
  have hBit : s.bits.testBit p = true := hMem
  have hLe := Nat.ge_two_pow_of_testBit hBit
  have hNonzero : s.bits ≠ 0 := by
    intro hZero
    simp [hZero] at hBit
  exact Nat.lt_succ_of_le ((Nat.le_log2 hNonzero).mpr hLe)

end PositionSet

end DtdConformance.ContentModel
