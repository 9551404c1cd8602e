import DtdConformance.ContentModel.Automaton
import DtdConformance.Proofs.ContentModel.Language

/-! # Lists of positions

An expression whose leaves are different positions is determined by what may come first, what may
come last and what may follow what. For every position there is the set of lists that may come
after it. The lists that an expression allows, and those that may come after a position, are taken
apart one position at a time.
-/
namespace DtdConformance.ContentModel.Expression
set_option autoImplicit false

/-- The position `q` may come directly after `p`. -/
def Follows (e : Expression Nat) (p q : Nat) : Prop :=
  ∃ link ∈ e.links, p ∈ link.1 ∧ q ∈ link.2

/-- The list completes an allowed one whose last position so far is `p`. -/
def Completes : Expression Nat → Nat → List Nat → Prop
  | empty, _, _ => False
  | leaf q, p, w => p = q ∧ w = []
  | sequence left right, p, w =>
    (∃ u v, w = u ++ v ∧ left.Completes p u ∧ Allows right v) ∨ right.Completes p w
  | choice left right, p, w => left.Completes p w ∨ right.Completes p w
  | repetition mark body, p, w =>
    ∃ u v, w = u ++ v ∧ body.Completes p u ∧ AllowsMore mark body v

attribute [local simp] first last links leaves Completes

/-! ## First, last and next positions -/

theorem mem_first_sequence_iff (left right : Expression Nat) (p : Nat) :
    p ∈ (sequence left right).first ↔
      p ∈ left.first ∨ left.nullable = true ∧ p ∈ right.first := by
  rw [first]
  split <;> simp_all

theorem mem_first_choice_iff (left right : Expression Nat) (p : Nat) :
    p ∈ (choice left right).first ↔ p ∈ left.first ∨ p ∈ right.first := by
  simp

theorem mem_last_sequence_iff (left right : Expression Nat) (p : Nat) :
    p ∈ (sequence left right).last ↔
      (right.nullable = true ∧ p ∈ left.last) ∨ p ∈ right.last := by
  rw [last]
  split <;> simp_all

theorem mem_last_choice_iff (left right : Expression Nat) (p : Nat) :
    p ∈ (choice left right).last ↔ p ∈ left.last ∨ p ∈ right.last := by
  simp

theorem not_follows_empty (p q : Nat) : ¬ Follows empty p q := by
  simp [Follows]

theorem not_follows_leaf (a p q : Nat) : ¬ Follows (leaf a) p q := by
  simp [Follows]

theorem follows_sequence_iff (left right : Expression Nat) (p q : Nat) :
    Follows (sequence left right) p q ↔
      left.Follows p q ∨ right.Follows p q ∨ p ∈ left.last ∧ q ∈ right.first := by
  simp only [Follows, links, List.mem_append, List.mem_singleton, or_and_right, exists_or,
    exists_eq_left, or_assoc]

theorem follows_choice_iff (left right : Expression Nat) (p q : Nat) :
    Follows (choice left right) p q ↔ left.Follows p q ∨ right.Follows p q := by
  simp only [Follows, links, List.mem_append, or_and_right, exists_or]

theorem follows_repetition_iff (mark : Repetition) (body : Expression Nat) (p q : Nat) :
    Follows (repetition mark body) p q ↔
      body.Follows p q ∨ mark.allowsMore = true ∧ p ∈ body.last ∧ q ∈ body.first := by
  rw [Follows, links]
  split
  · next hMore =>
    simp only [Follows, List.mem_append, List.mem_singleton, or_and_right, exists_or,
      exists_eq_left, hMore, true_and]
  · next hMore => simp [Follows, hMore]

/-! ## Positions are leaves -/

theorem mem_leaves_of_mem_first {e : Expression Nat} {p : Nat} (h : p ∈ e.first) :
    p ∈ e.leaves := by
  induction e with
  | empty => simp at h
  | leaf a => simpa using h
  | sequence left right ihLeft ihRight =>
    rcases (mem_first_sequence_iff left right p).mp h with h | ⟨_, h⟩
    · exact List.mem_append_left _ (ihLeft h)
    · exact List.mem_append_right _ (ihRight h)
  | choice left right ihLeft ihRight =>
    rcases (mem_first_choice_iff left right p).mp h with h | h
    · exact List.mem_append_left _ (ihLeft h)
    · exact List.mem_append_right _ (ihRight h)
  | repetition mark body ih => exact ih h

theorem mem_leaves_of_mem_last {e : Expression Nat} {p : Nat} (h : p ∈ e.last) :
    p ∈ e.leaves := by
  induction e with
  | empty => simp at h
  | leaf a => simpa using h
  | sequence left right ihLeft ihRight =>
    rcases (mem_last_sequence_iff left right p).mp h with ⟨_, h⟩ | h
    · exact List.mem_append_left _ (ihLeft h)
    · exact List.mem_append_right _ (ihRight h)
  | choice left right ihLeft ihRight =>
    rcases (mem_last_choice_iff left right p).mp h with h | h
    · exact List.mem_append_left _ (ihLeft h)
    · exact List.mem_append_right _ (ihRight h)
  | repetition mark body ih => exact ih h

theorem mem_leaves_of_follows {e : Expression Nat} {p q : Nat} (h : e.Follows p q) :
    p ∈ e.leaves ∧ q ∈ e.leaves := by
  induction e with
  | empty => exact absurd h (not_follows_empty p q)
  | leaf a => exact absurd h (not_follows_leaf a p q)
  | sequence left right ihLeft ihRight =>
    simp only [leaves, List.mem_append]
    rcases (follows_sequence_iff left right p q).mp h with h | h | ⟨hp, hq⟩
    · exact ⟨Or.inl (ihLeft h).1, Or.inl (ihLeft h).2⟩
    · exact ⟨Or.inr (ihRight h).1, Or.inr (ihRight h).2⟩
    · exact ⟨Or.inl (mem_leaves_of_mem_last hp), Or.inr (mem_leaves_of_mem_first hq)⟩
  | choice left right ihLeft ihRight =>
    simp only [leaves, List.mem_append]
    rcases (follows_choice_iff left right p q).mp h with h | h
    · exact ⟨Or.inl (ihLeft h).1, Or.inl (ihLeft h).2⟩
    · exact ⟨Or.inr (ihRight h).1, Or.inr (ihRight h).2⟩
  | repetition mark body ih =>
    rcases (follows_repetition_iff mark body p q).mp h with h | ⟨_, hp, hq⟩
    · exact ih h
    · exact ⟨mem_leaves_of_mem_last hp, mem_leaves_of_mem_first hq⟩

theorem mem_leaves_of_completes {e : Expression Nat} {p : Nat} {w : List Nat}
    (h : e.Completes p w) : p ∈ e.leaves := by
  induction e generalizing w with
  | empty => exact h.elim
  | leaf a => simp [h.1]
  | sequence left right ihLeft ihRight =>
    rcases h with ⟨u, v, _, h, _⟩ | h
    · exact List.mem_append_left _ (ihLeft h)
    · exact List.mem_append_right _ (ihRight h)
  | choice left right ihLeft ihRight =>
    rcases h with h | h
    · exact List.mem_append_left _ (ihLeft h)
    · exact List.mem_append_right _ (ihRight h)
  | repetition mark body ih =>
    obtain ⟨u, v, _, h, _⟩ := h
    exact ih h

/-! ## One position at a time -/

/-- No position stands at two leaves. -/
def Linear (e : Expression Nat) : Prop := e.leaves.Nodup

namespace Linear

variable {left right : Expression Nat}

theorem ofSequence (h : Linear (sequence left right)) :
    Linear left ∧ Linear right ∧ ∀ p ∈ left.leaves, p ∉ right.leaves := by
  obtain ⟨hLeft, hRight, hApart⟩ := List.nodup_append.mp h
  exact ⟨hLeft, hRight, fun p hp hq => hApart p hp p hq rfl⟩

theorem ofChoice (h : Linear (choice left right)) :
    Linear left ∧ Linear right ∧ ∀ p ∈ left.leaves, p ∉ right.leaves := by
  have hSequence : Linear (sequence left right) := h
  exact hSequence.ofSequence

end Linear

theorem completes_nil_iff (e : Expression Nat) (p : Nat) : e.Completes p [] ↔ p ∈ e.last := by
  induction e with
  | empty => simp
  | leaf a => simp
  | sequence left right ihLeft ihRight =>
    rw [mem_last_sequence_iff, ← ihLeft, ← ihRight, ← allows_nil_iff, Completes]
    constructor
    · rintro (⟨u, v, hNil, hLeft, hRight⟩ | hRight)
      · obtain ⟨rfl, rfl⟩ := List.append_eq_nil_iff.mp hNil.symm
        exact Or.inl ⟨hRight, hLeft⟩
      · exact Or.inr hRight
    · rintro (⟨hRight, hLeft⟩ | hRight)
      · exact Or.inl ⟨[], [], rfl, hLeft, hRight⟩
      · exact Or.inr hRight
  | choice left right ihLeft ihRight =>
    rw [mem_last_choice_iff, ← ihLeft, ← ihRight, Completes]
  | repetition mark body ih =>
    rw [last, ← ih, Completes]
    constructor
    · rintro ⟨u, v, hNil, hBody, _⟩
      obtain ⟨rfl, rfl⟩ := List.append_eq_nil_iff.mp hNil.symm
      exact hBody
    · exact fun hBody => ⟨[], [], rfl, hBody, Or.inl rfl⟩

theorem allows_cons_iff {e : Expression Nat} (hLinear : e.Linear) (p : Nat) (w : List Nat) :
    Allows e (p :: w) ↔ p ∈ e.first ∧ e.Completes p w := by
  induction e generalizing w with
  | empty => simp [allows_empty_iff]
  | leaf a => simp [allows_leaf_iff]
  | sequence left right ihLeft ihRight =>
    obtain ⟨hLeft, hRight, hApart⟩ := hLinear.ofSequence
    rw [allows_sequence_iff, mem_first_sequence_iff, Completes]
    constructor
    · rintro ⟨u, v, hList, hu, hv⟩
      cases u with
      | nil =>
        subst hList
        obtain ⟨hFirst, hCompletes⟩ := (ihRight hRight w).mp hv
        exact ⟨Or.inr ⟨(allows_nil_iff left).mp hu, hFirst⟩, Or.inr hCompletes⟩
      | cons q u =>
        cases hList
        obtain ⟨hFirst, hCompletes⟩ := (ihLeft hLeft u).mp hu
        exact ⟨Or.inl hFirst, Or.inl ⟨u, v, rfl, hCompletes, hv⟩⟩
    · rintro ⟨hFirst | ⟨hNullable, hFirst⟩, ⟨u, v, rfl, hCompletes, hv⟩ | hCompletes⟩
      · exact ⟨p :: u, v, rfl, (ihLeft hLeft u).mpr ⟨hFirst, hCompletes⟩, hv⟩
      · exact absurd (mem_leaves_of_completes hCompletes)
          (hApart p (mem_leaves_of_mem_first hFirst))
      · exact absurd (mem_leaves_of_mem_first hFirst)
          (hApart p (mem_leaves_of_completes hCompletes))
      · exact ⟨[], p :: w, rfl, allows_nil_of_nullable hNullable,
          (ihRight hRight w).mpr ⟨hFirst, hCompletes⟩⟩
  | choice left right ihLeft ihRight =>
    obtain ⟨hLeft, hRight, hApart⟩ := hLinear.ofChoice
    rw [allows_choice_iff, mem_first_choice_iff, Completes, ihLeft hLeft, ihRight hRight]
    constructor
    · rintro (⟨hFirst, hCompletes⟩ | ⟨hFirst, hCompletes⟩)
      · exact ⟨Or.inl hFirst, Or.inl hCompletes⟩
      · exact ⟨Or.inr hFirst, Or.inr hCompletes⟩
    · rintro ⟨hFirst | hFirst, hCompletes | hCompletes⟩
      · exact Or.inl ⟨hFirst, hCompletes⟩
      · exact absurd (mem_leaves_of_completes hCompletes)
          (hApart p (mem_leaves_of_mem_first hFirst))
      · exact absurd (mem_leaves_of_mem_first hFirst)
          (hApart p (mem_leaves_of_completes hCompletes))
      · exact Or.inr ⟨hFirst, hCompletes⟩
  | repetition mark body ih =>
    rw [allows_repetition_cons_iff, first, Completes]
    constructor
    · rintro ⟨u, v, rfl, hBody, hMore⟩
      obtain ⟨hFirst, hCompletes⟩ := (ih hLinear u).mp hBody
      exact ⟨hFirst, u, v, rfl, hCompletes, hMore⟩
    · rintro ⟨hFirst, u, v, rfl, hCompletes, hMore⟩
      exact ⟨u, v, rfl, (ih hLinear u).mpr ⟨hFirst, hCompletes⟩, hMore⟩

theorem completes_cons_iff {e : Expression Nat} (hLinear : e.Linear) (p q : Nat) (w : List Nat) :
    e.Completes p (q :: w) ↔ e.Follows p q ∧ e.Completes q w := by
  induction e generalizing w with
  | empty => simp
  | leaf a => simp [not_follows_leaf]
  | sequence left right ihLeft ihRight =>
    obtain ⟨hLeft, hRight, hApart⟩ := hLinear.ofSequence
    rw [follows_sequence_iff]
    simp only [Completes]
    constructor
    · rintro (⟨u, v, hList, hu, hv⟩ | hCompletes)
      · cases u with
        | nil =>
          subst hList
          obtain ⟨hFirst, hCompletes⟩ := (allows_cons_iff hRight q w).mp hv
          exact ⟨Or.inr (Or.inr ⟨(completes_nil_iff left p).mp hu, hFirst⟩), Or.inr hCompletes⟩
        | cons r u =>
          cases hList
          obtain ⟨hFollows, hCompletes⟩ := (ihLeft hLeft u).mp hu
          exact ⟨Or.inl hFollows, Or.inl ⟨u, v, rfl, hCompletes, hv⟩⟩
      · obtain ⟨hFollows, hCompletes⟩ := (ihRight hRight w).mp hCompletes
        exact ⟨Or.inr (Or.inl hFollows), Or.inr hCompletes⟩
    · rintro ⟨hFollows | hFollows | ⟨hLast, hFirst⟩, ⟨u, v, rfl, hCompletes, hv⟩ | hCompletes⟩
      · exact Or.inl ⟨q :: u, v, rfl, (ihLeft hLeft u).mpr ⟨hFollows, hCompletes⟩, hv⟩
      · exact absurd (mem_leaves_of_completes hCompletes)
          (hApart q (mem_leaves_of_follows hFollows).2)
      · exact absurd (mem_leaves_of_follows hFollows).2
          (hApart q (mem_leaves_of_completes hCompletes))
      · exact Or.inr ((ihRight hRight w).mpr ⟨hFollows, hCompletes⟩)
      · exact absurd (mem_leaves_of_mem_first hFirst)
          (hApart q (mem_leaves_of_completes hCompletes))
      · exact Or.inl ⟨[], q :: w, rfl, (completes_nil_iff left p).mpr hLast,
          (allows_cons_iff hRight q w).mpr ⟨hFirst, hCompletes⟩⟩
  | choice left right ihLeft ihRight =>
    obtain ⟨hLeft, hRight, hApart⟩ := hLinear.ofChoice
    rw [follows_choice_iff]
    simp only [Completes, ihLeft hLeft, ihRight hRight]
    constructor
    · rintro (⟨hFollows, hCompletes⟩ | ⟨hFollows, hCompletes⟩)
      · exact ⟨Or.inl hFollows, Or.inl hCompletes⟩
      · exact ⟨Or.inr hFollows, Or.inr hCompletes⟩
    · rintro ⟨hFollows | hFollows, hCompletes | hCompletes⟩
      · exact Or.inl ⟨hFollows, hCompletes⟩
      · exact absurd (mem_leaves_of_completes hCompletes)
          (hApart q (mem_leaves_of_follows hFollows).2)
      · exact absurd (mem_leaves_of_follows hFollows).2
          (hApart q (mem_leaves_of_completes hCompletes))
      · exact Or.inr ⟨hFollows, hCompletes⟩
  | repetition mark body ih =>
    rw [follows_repetition_iff]
    simp only [Completes]
    constructor
    · rintro ⟨u, v, hList, hu, hMore⟩
      cases u with
      | nil =>
        subst hList
        rcases hMore with hNil | ⟨hMark, hAllows⟩
        · cases hNil
        · obtain ⟨hFirst, hCompletes⟩ := (allows_cons_iff hLinear q w).mp hAllows
          exact ⟨Or.inr ⟨hMark, (completes_nil_iff body p).mp hu, hFirst⟩, hCompletes⟩
      | cons r u =>
        cases hList
        obtain ⟨hFollows, hCompletes⟩ := (ih hLinear u).mp hu
        exact ⟨Or.inl hFollows, u, v, rfl, hCompletes, hMore⟩
    · rintro ⟨hFollows | ⟨hMark, hLast, hFirst⟩, hCompletes⟩
      · obtain ⟨u, v, rfl, hBody, hMore⟩ := hCompletes
        exact ⟨q :: u, v, rfl, (ih hLinear u).mpr ⟨hFollows, hBody⟩, hMore⟩
      · exact ⟨[], q :: w, rfl, (completes_nil_iff body p).mpr hLast,
          Or.inr ⟨hMark, (allows_cons_iff hLinear q w).mpr ⟨hFirst, hCompletes⟩⟩⟩

end DtdConformance.ContentModel.Expression
