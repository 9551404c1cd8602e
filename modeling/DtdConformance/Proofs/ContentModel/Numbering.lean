import DtdConformance.Proofs.ContentModel.Position

/-! # Numbered leaves

The leaves of an expression are numbered from left to right, so the numbered expression is linear
and turns back into the expression when every position is replaced by its name.
-/
namespace DtdConformance.ContentModel
set_option autoImplicit false

namespace Expression

variable {α β : Type}

def map (f : α → β) : Expression α → Expression β
  | empty => empty
  | leaf a => leaf (f a)
  | sequence left right => sequence (left.map f) (right.map f)
  | choice left right => choice (left.map f) (right.map f)
  | repetition mark body => repetition mark (body.map f)

attribute [local simp] map numbered leaves

theorem allows_map {e : Expression α} {w : List α} (f : α → β) (h : Allows e w) :
    Allows (e.map f) (w.map f) := by
  induction h with
  | empty => exact .empty
  | leaf a => exact .leaf (f a)
  | sequence _ _ ihLeft ihRight =>
    rw [List.map_append]
    exact .sequence ihLeft ihRight
  | choiceLeft _ ih => exact .choiceLeft ih
  | choiceRight _ ih => exact .choiceRight ih
  | none hNone => exact .none hNone
  | once _ ih => exact .once ih
  | more hMore _ _ ihBody ihRest =>
    rw [List.map_append]
    exact .more hMore ihBody ihRest

theorem exists_allows_of_allows_map {e : Expression α} {f : α → β} {w : List β}
    (h : Allows (e.map f) w) : ∃ v, Allows e v ∧ v.map f = w := by
  generalize hMapped : e.map f = mapped at h
  induction h generalizing e with
  | empty =>
    cases e <;> cases hMapped
    exact ⟨[], .empty, rfl⟩
  | leaf b =>
    cases e <;> cases hMapped
    exact ⟨_, .leaf _, rfl⟩
  | sequence _ _ ihLeft ihRight =>
    cases e <;> cases hMapped
    obtain ⟨u, hu, rfl⟩ := ihLeft rfl
    obtain ⟨v, hv, rfl⟩ := ihRight rfl
    exact ⟨u ++ v, .sequence hu hv, List.map_append⟩
  | choiceLeft _ ih =>
    cases e <;> cases hMapped
    obtain ⟨u, hu, rfl⟩ := ih rfl
    exact ⟨u, .choiceLeft hu, rfl⟩
  | choiceRight _ ih =>
    cases e <;> cases hMapped
    obtain ⟨u, hu, rfl⟩ := ih rfl
    exact ⟨u, .choiceRight hu, rfl⟩
  | none hNone =>
    cases e <;> cases hMapped
    exact ⟨[], .none hNone, rfl⟩
  | once _ ih =>
    cases e <;> cases hMapped
    obtain ⟨u, hu, rfl⟩ := ih rfl
    exact ⟨u, .once hu, rfl⟩
  | more hMore _ _ ihBody ihRest =>
    cases e with
    | repetition mark body =>
      cases hMapped
      obtain ⟨u, hu, rfl⟩ := ihBody rfl
      obtain ⟨v, hv, rfl⟩ := ihRest (e := repetition _ body) rfl
      exact ⟨u ++ v, .more hMore hu hv, List.map_append⟩
    | _ => cases hMapped

theorem allows_map_iff (e : Expression α) (f : α → β) (w : List β) :
    Allows (e.map f) w ↔ ∃ v, Allows e v ∧ v.map f = w := by
  constructor
  · exact exists_allows_of_allows_map
  · rintro ⟨v, h, rfl⟩
    exact allows_map f h

theorem snd_numbered (e : Expression α) (next : Nat) :
    (e.numbered next).2 = next + e.leaves.length := by
  induction e generalizing next with
  | empty => rfl
  | leaf a => rfl
  | sequence left right ihLeft ihRight | choice left right ihLeft ihRight =>
    simp [ihLeft, ihRight]
    omega
  | repetition mark body ih => exact ih next

theorem leaves_numbered (e : Expression α) (next : Nat) :
    (e.numbered next).1.leaves = List.range' next e.leaves.length := by
  induction e generalizing next with
  | empty => rfl
  | leaf a => rfl
  | sequence left right ihLeft ihRight | choice left right ihLeft ihRight =>
    simp only [numbered, leaves, ihLeft, ihRight, snd_numbered, List.length_append]
    rw [List.range'_append_1]
  | repetition mark body ih => exact ih next

theorem linear_numbered (e : Expression α) (next : Nat) : (e.numbered next).1.Linear := by
  rw [Linear, leaves_numbered]
  exact List.nodup_range'

theorem map_numbered (e : Expression α) (next : Nat) (f : Nat → α)
    (h : ∀ i a, e.leaves[i]? = some a → f (next + i) = a) : (e.numbered next).1.map f = e := by
  induction e generalizing next with
  | empty => rfl
  | leaf a =>
    have hLeaf := h 0 a rfl
    simpa using hLeaf
  | sequence left right ihLeft ihRight | choice left right ihLeft ihRight =>
    simp only [numbered, map, snd_numbered]
    congr 1
    · apply ihLeft
      intro i a hLeaf
      apply h
      obtain ⟨hLess, _⟩ := List.getElem?_eq_some_iff.mp hLeaf
      exact (List.getElem?_append_left hLess).trans hLeaf
    · apply ihRight
      intro i a hLeaf
      rw [Nat.add_assoc]
      apply h
      rw [leaves, List.getElem?_append_right (Nat.le_add_right _ _), Nat.add_sub_cancel_left]
      exact hLeaf
  | repetition mark body ih =>
    rw [numbered, map]
    exact congrArg (repetition mark) (ih next h)

end Expression

end DtdConformance.ContentModel
