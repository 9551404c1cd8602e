import DtdConformance.Proofs.Text.Character

/-! # Blanks put into a text

Blanks may be put anywhere into a text. Without its blanks a text is what it was before they were
put in, when there were none before.
-/
namespace DtdConformance.Text
set_option autoImplicit false

/-- The second text is the first with blanks put in. -/
inductive Spaced : List Char → List Char → Prop
  | nil : Spaced [] []
  | char (c : Char) {cs ws : List Char} (tail : Spaced cs ws) : Spaced (c :: cs) (c :: ws)
  | blank {b : Char} (h : isBlank b = true) {cs ws : List Char} (tail : Spaced cs ws) :
      Spaced cs (b :: ws)

theorem removeBlanks_eq_self_iff (cs : List Char) :
    removeBlanks cs = cs ↔ ∀ c ∈ cs, isBlank c = false := by
  simp [removeBlanks, List.filter_eq_self]

theorem removeBlanks_eq_self {cs : List Char} (h : ∀ c ∈ cs, isBlank c = false) :
    removeBlanks cs = cs := (removeBlanks_eq_self_iff cs).mpr h

theorem removeBlanks_eq_nil_iff (cs : List Char) :
    removeBlanks cs = [] ↔ ∀ c ∈ cs, isBlank c = true := by
  simp [removeBlanks]

theorem hasText_eq (cs : List Char) : hasText cs = !(removeBlanks cs).isEmpty := by
  cases hText : hasText cs with
  | false =>
    rw [(removeBlanks_eq_nil_iff cs).mpr ((hasText_eq_false_iff cs).mp hText)]
    rfl
  | true =>
    obtain ⟨c, hMem, hChar⟩ := (hasText_eq_true_iff cs).mp hText
    have hKept := (mem_removeBlanks_iff c cs).mpr ⟨hMem, hChar⟩
    rw [List.isEmpty_eq_false_iff.mpr (List.ne_nil_of_mem hKept)]
    rfl

theorem isEmpty_trim (cs : List Char) : (trim cs).isEmpty = (removeBlanks cs).isEmpty := by
  rw [Bool.eq_iff_iff, List.isEmpty_iff, List.isEmpty_iff, trim_eq_nil_iff,
    removeBlanks_eq_nil_iff]

theorem removeBlanks_cons_of_blank {b : Char} (h : isBlank b = true) (cs : List Char) :
    removeBlanks (b :: cs) = removeBlanks cs := by
  rw [removeBlanks, List.filter_cons_of_neg (by simp [h])]
  rfl

theorem removeBlanks_cons_of_not_blank {c : Char} (h : isBlank c = false) (cs : List Char) :
    removeBlanks (c :: cs) = c :: removeBlanks cs := by
  rw [removeBlanks, List.filter_cons_of_pos (by simp [h])]
  rfl

theorem Spaced.removeBlanks_eq {cs ws : List Char} (h : Spaced cs ws) :
    removeBlanks ws = removeBlanks cs := by
  induction h with
  | nil => rfl
  | char c _ ih =>
    cases hBlank : isBlank c with
    | true => rw [removeBlanks_cons_of_blank hBlank, removeBlanks_cons_of_blank hBlank, ih]
    | false =>
      rw [removeBlanks_cons_of_not_blank hBlank, removeBlanks_cons_of_not_blank hBlank, ih]
  | blank hBlank _ ih => rw [removeBlanks_cons_of_blank hBlank, ih]

/-- A mark without blanks is not broken up when the blanks around it go. -/
theorem isInfix_removeBlanks {mark cs : List Char} (hMark : ∀ c ∈ mark, isBlank c = false)
    (h : mark <:+: cs) : mark <:+: removeBlanks cs := by
  have hKept := h.filter fun c => !isBlank c
  rwa [← removeBlanks, ← removeBlanks, removeBlanks_eq_self hMark] at hKept

theorem spaced_removeBlanks (ws : List Char) : Spaced (removeBlanks ws) ws := by
  induction ws with
  | nil => exact .nil
  | cons c ws ih =>
    cases hBlank : isBlank c with
    | true =>
      rw [removeBlanks_cons_of_blank hBlank]
      exact .blank hBlank ih
    | false =>
      rw [removeBlanks_cons_of_not_blank hBlank]
      exact .char c ih

theorem spaced_iff {cs ws : List Char} (h : ∀ c ∈ cs, isBlank c = false) :
    Spaced cs ws ↔ removeBlanks ws = cs := by
  constructor
  · intro hSpaced
    rw [hSpaced.removeBlanks_eq, removeBlanks_eq_self h]
  · rintro rfl
    exact spaced_removeBlanks ws

end DtdConformance.Text
