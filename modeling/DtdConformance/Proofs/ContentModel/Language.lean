import DtdConformance.ContentModel.Expression
import Mathlib.Computability.Language

/-! # Languages of expressions

The child lists that an expression allows form the regular language that its operators say. Lists
that an expression allows are taken apart here from the front: an empty one by the question whether
the expression may be absent, any other by its first leaf.
-/
namespace DtdConformance.ContentModel.Expression
set_option autoImplicit false

open scoped Computability

variable {α β : Type}

/-- Concatenation, union and the usual repetitions. -/
def language : Expression α → Language α
  | empty => 1
  | leaf a => {[a]}
  | sequence left right => left.language * right.language
  | choice left right => left.language + right.language
  | repetition .optional body => 1 + body.language
  | repetition .many body => body.language∗
  | repetition .some body => body.language * body.language∗

/-! ## Lists that are allowed -/

theorem allows_empty_iff (w : List α) : Allows empty w ↔ w = [] := by
  constructor
  · rintro ⟨⟩
    rfl
  · rintro rfl
    exact .empty

theorem allows_leaf_iff (a : α) (w : List α) : Allows (leaf a) w ↔ w = [a] := by
  constructor
  · rintro ⟨⟩
    rfl
  · rintro rfl
    exact .leaf a

theorem allows_sequence_iff (left right : Expression α) (w : List α) :
    Allows (sequence left right) w ↔ ∃ u v, w = u ++ v ∧ Allows left u ∧ Allows right v := by
  constructor
  · rintro (_ | _ | ⟨hLeft, hRight⟩)
    exact ⟨_, _, rfl, hLeft, hRight⟩
  · rintro ⟨u, v, rfl, hLeft, hRight⟩
    exact .sequence hLeft hRight

theorem allows_choice_iff (left right : Expression α) (w : List α) :
    Allows (choice left right) w ↔ Allows left w ∨ Allows right w := by
  constructor
  · intro h
    cases h with
    | choiceLeft hLeft => exact Or.inl hLeft
    | choiceRight hRight => exact Or.inr hRight
  · rintro (hLeft | hRight)
    · exact .choiceLeft hLeft
    · exact .choiceRight hRight

theorem nullable_of_allows_nil {e : Expression α} (h : Allows e []) : e.nullable = true := by
  generalize hNil : ([] : List α) = w at h
  induction h with
  | empty => rfl
  | leaf a => cases hNil
  | sequence _ _ ihLeft ihRight =>
    obtain ⟨hu, hv⟩ := List.append_eq_nil_iff.mp hNil.symm
    simp [nullable, ihLeft hu.symm, ihRight hv.symm]
  | choiceLeft _ ih => simp [nullable, ih hNil]
  | choiceRight _ ih => simp [nullable, ih hNil]
  | none hNone => simp [nullable, hNone]
  | once _ ih => simp [nullable, ih hNil]
  | more _ _ _ ihBody _ =>
    obtain ⟨hu, _⟩ := List.append_eq_nil_iff.mp hNil.symm
    simp [nullable, ihBody hu.symm]

theorem allows_nil_iff (e : Expression α) : Allows e [] ↔ e.nullable = true :=
  ⟨nullable_of_allows_nil, allows_nil_of_nullable⟩

/-- What may follow one body of a repetition. -/
def AllowsMore (mark : Repetition) (body : Expression α) (w : List α) : Prop :=
  w = [] ∨ mark.allowsMore = true ∧ Allows (repetition mark body) w

theorem allows_repetition_of_more {mark : Repetition} {body : Expression α} {u v : List α}
    (hBody : Allows body u) (hMore : AllowsMore mark body v) :
    Allows (repetition mark body) (u ++ v) := by
  rcases hMore with rfl | ⟨hMark, hRest⟩
  · simpa using Allows.once hBody
  · exact .more hMark hBody hRest

/-- A repetition that is not empty begins with a body that is not empty. -/
theorem allows_repetition_cons_iff (mark : Repetition) (body : Expression α) (a : α)
    (w : List α) : Allows (repetition mark body) (a :: w) ↔
      ∃ u v, w = u ++ v ∧ Allows body (a :: u) ∧ AllowsMore mark body v := by
  constructor
  · intro h
    generalize hList : a :: w = whole at h
    generalize hExpression : repetition mark body = e at h
    induction h with
    | none _ => cases hList
    | once hBody _ =>
      cases hExpression
      subst hList
      exact ⟨w, [], by simp, hBody, Or.inl rfl⟩
    | @more _ _ u v hMark hBody hRest _ ihRest =>
      cases hExpression
      cases u with
      | nil => exact ihRest hList rfl
      | cons b u =>
        cases hList
        exact ⟨u, v, rfl, hBody, Or.inr ⟨hMark, hRest⟩⟩
    | _ => cases hExpression
  · rintro ⟨u, v, rfl, hBody, hMore⟩
    exact allows_repetition_of_more hBody hMore

/-! ## The language -/

theorem flatten_allows_many {body : Expression α} (parts : List (List α))
    (h : ∀ part ∈ parts, Allows body part) : Allows (repetition .many body) parts.flatten := by
  induction parts with
  | nil => exact .none rfl
  | cons part parts ih =>
    have hRest := ih fun other hOther => h other (List.mem_cons_of_mem _ hOther)
    exact .more rfl (h part List.mem_cons_self) hRest

theorem exists_parts_of_allows_repetition {mark : Repetition} {body : Expression α} {w : List α}
    (h : Allows (repetition mark body) w) :
    ∃ parts : List (List α), w = parts.flatten ∧ ∀ part ∈ parts, Allows body part := by
  generalize hExpression : repetition mark body = e at h
  induction h with
  | none _ => exact ⟨[], by simp⟩
  | @once _ _ u hBody _ =>
    cases hExpression
    exact ⟨[u], by simp, by simpa using hBody⟩
  | @more _ _ u v _ hBody _ _ ihRest =>
    cases hExpression
    obtain ⟨parts, rfl, hParts⟩ := ihRest rfl
    exact ⟨u :: parts, rfl, by simpa using ⟨hBody, hParts⟩⟩
  | _ => cases hExpression

theorem allows_optional_iff (body : Expression α) (w : List α) :
    Allows (repetition .optional body) w ↔ w = [] ∨ Allows body w := by
  constructor
  · intro h
    cases h with
    | none _ => exact Or.inl rfl
    | once hBody => exact Or.inr hBody
    | more hMore _ _ => cases hMore
  · rintro (rfl | hBody)
    · exact .none rfl
    · exact .once hBody

theorem allows_many_iff (body : Expression α) (w : List α) :
    Allows (repetition .many body) w ↔
      ∃ parts : List (List α), w = parts.flatten ∧ ∀ part ∈ parts, Allows body part := by
  constructor
  · exact exists_parts_of_allows_repetition
  · rintro ⟨parts, rfl, hParts⟩
    exact flatten_allows_many parts hParts

theorem allows_some_iff (body : Expression α) (w : List α) :
    Allows (repetition .some body) w ↔
      ∃ u v, w = u ++ v ∧ Allows body u ∧ Allows (repetition .many body) v := by
  constructor
  · intro h
    cases h with
    | none hNone => cases hNone
    | once hBody => exact ⟨w, [], by simp, hBody, .none rfl⟩
    | @more _ _ u v _ hBody hRest =>
      obtain ⟨parts, rfl, hParts⟩ := exists_parts_of_allows_repetition hRest
      exact ⟨u, parts.flatten, rfl, hBody, flatten_allows_many parts hParts⟩
  · rintro ⟨u, v, rfl, hBody, hRest⟩
    obtain ⟨parts, rfl, hParts⟩ := exists_parts_of_allows_repetition hRest
    clear hRest
    induction parts generalizing u with
    | nil => simpa using Allows.once hBody
    | cons part parts ih =>
      exact .more rfl hBody (ih part (hParts part List.mem_cons_self)
        fun other hOther => hParts other (List.mem_cons_of_mem _ hOther))

theorem mem_language_iff (e : Expression α) (w : List α) : w ∈ e.language ↔ Allows e w := by
  induction e generalizing w with
  | empty => rw [language, Language.mem_one, allows_empty_iff]
  | leaf a => exact (allows_leaf_iff a w).symm
  | sequence left right ihLeft ihRight =>
    rw [language, Language.mem_mul, allows_sequence_iff]
    constructor
    · rintro ⟨u, hu, v, hv, rfl⟩
      exact ⟨u, v, rfl, (ihLeft u).mp hu, (ihRight v).mp hv⟩
    · rintro ⟨u, v, rfl, hu, hv⟩
      exact ⟨u, (ihLeft u).mpr hu, v, (ihRight v).mpr hv, rfl⟩
  | choice left right ihLeft ihRight =>
    rw [language, Language.mem_add, allows_choice_iff, ihLeft, ihRight]
  | repetition mark body ih =>
    have hMany (v : List α) : v ∈ body.language∗ ↔ Allows (repetition .many body) v := by
      simp only [Language.mem_kstar, allows_many_iff, ih]
    cases mark with
    | optional => rw [language, Language.mem_add, Language.mem_one, allows_optional_iff, ih]
    | many => exact hMany w
    | some =>
      rw [language, Language.mem_mul, allows_some_iff]
      constructor
      · rintro ⟨u, hu, v, hv, rfl⟩
        exact ⟨u, v, rfl, (ih u).mp hu, (hMany v).mp hv⟩
      · rintro ⟨u, v, rfl, hu, hv⟩
        exact ⟨u, (ih u).mpr hu, v, (hMany v).mpr hv, rfl⟩

end DtdConformance.ContentModel.Expression
