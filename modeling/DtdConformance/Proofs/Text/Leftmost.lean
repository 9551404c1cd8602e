import Mathlib.Tactic.ByContra

/-! # Matches from left to right

A scan takes the first match that it meets and goes on behind it. So a match counts when it does not
begin inside an earlier match that counts. The scan itself is judged at the offsets that it passes:
an offset is clear when nothing that counts reaches across it.
-/
namespace DtdConformance.Text
set_option autoImplicit false

variable {isMatch : Nat → Nat → Prop} {start stop offset : Nat}

/-- The match counts: no earlier match that counts reaches beyond its start. -/
def Leftmost (isMatch : Nat → Nat → Prop) (start stop : Nat) : Prop :=
  isMatch start stop ∧
    ∀ earlier < start, ∀ reach, Leftmost isMatch earlier reach → reach ≤ start
termination_by start

def IsClear (isMatch : Nat → Nat → Prop) (offset : Nat) : Prop :=
  ∀ earlier < offset, ∀ reach, Leftmost isMatch earlier reach → reach ≤ offset

def IsCovered (isMatch : Nat → Nat → Prop) (offset : Nat) : Prop :=
  ∃ start stop, Leftmost isMatch start stop ∧ start ≤ offset ∧ offset < stop

theorem leftmost_iff : Leftmost isMatch start stop ↔ isMatch start stop ∧ IsClear isMatch start := by
  rw [Leftmost]
  rfl

theorem isClear_zero : IsClear isMatch 0 := by
  intro earlier hEarlier
  omega

/-- What is not covered is clear. -/
theorem isClear_of_not_isCovered (h : ¬ IsCovered isMatch offset) : IsClear isMatch offset := by
  intro earlier hEarlier reach hLeftmost
  by_contra hReach
  exact h ⟨earlier, reach, hLeftmost, by omega, by omega⟩

theorem IsClear.succ (hClear : IsClear isMatch offset) (hNone : ∀ stop, ¬ isMatch offset stop) :
    IsClear isMatch (offset + 1) := by
  intro earlier hEarlier reach hLeftmost
  rcases Nat.lt_or_eq_of_le (Nat.le_of_lt_succ hEarlier) with hBefore | rfl
  · have := hClear earlier hBefore reach hLeftmost
    omega
  · exact absurd (leftmost_iff.mp hLeftmost).1 (hNone reach)

/-- The scan goes on behind a match. Matches that begin inside it do not count. -/
theorem IsClear.behind (hClear : IsClear isMatch start) (hMatch : isMatch start stop)
    (hUnique : ∀ other, isMatch start other → other = stop) (hLess : start < stop) :
    IsClear isMatch stop := by
  have hHere : Leftmost isMatch start stop := leftmost_iff.mpr ⟨hMatch, hClear⟩
  intro earlier hEarlier reach hLeftmost
  obtain ⟨hOther, hBefore⟩ := leftmost_iff.mp hLeftmost
  rcases Nat.lt_trichotomy earlier start with hLower | rfl | hHigher
  · have := hClear earlier hLower reach hLeftmost
    omega
  · exact Nat.le_of_eq (hUnique reach hOther)
  · have := hBefore start hHigher stop hHere
    omega

theorem IsClear.not_isCovered (hClear : IsClear isMatch offset)
    (hNone : ∀ stop, ¬ isMatch offset stop) : ¬ IsCovered isMatch offset := by
  rintro ⟨start, stop, hLeftmost, hStart, hStop⟩
  rcases Nat.lt_or_eq_of_le hStart with hBefore | rfl
  · have := hClear start hBefore stop hLeftmost
    omega
  · exact hNone stop (leftmost_iff.mp hLeftmost).1

/-! ## The matches that are still ahead -/

def BeginsFrom (isMatch : Nat → Nat → Prop) (offset start : Nat) : Prop :=
  offset ≤ start ∧ ∃ stop, Leftmost isMatch start stop

theorem beginsFrom_succ_iff (hNone : ∀ stop, ¬ isMatch offset stop) :
    BeginsFrom isMatch (offset + 1) start ↔ BeginsFrom isMatch offset start := by
  constructor
  · rintro ⟨hLess, hFound⟩
    exact ⟨Nat.le_of_lt hLess, hFound⟩
  · rintro ⟨hLe, stop, hLeftmost⟩
    refine ⟨?_, stop, hLeftmost⟩
    rcases Nat.lt_or_eq_of_le hLe with hLess | rfl
    · exact hLess
    · exact absurd (leftmost_iff.mp hLeftmost).1 (hNone stop)

theorem beginsFrom_iff_of_leftmost (hHere : Leftmost isMatch offset stop) (hLess : offset < stop) :
    BeginsFrom isMatch offset start ↔ start = offset ∨ BeginsFrom isMatch stop start := by
  constructor
  · rintro ⟨hLe, reach, hLeftmost⟩
    rcases Nat.lt_or_eq_of_le hLe with hLater | rfl
    · exact .inr ⟨(leftmost_iff.mp hLeftmost).2 offset hLater stop hHere, reach, hLeftmost⟩
    · exact .inl rfl
  · rintro (rfl | ⟨hLe, hFound⟩)
    · exact ⟨Nat.le_refl start, stop, hHere⟩
    · exact ⟨by omega, hFound⟩

end DtdConformance.Text
