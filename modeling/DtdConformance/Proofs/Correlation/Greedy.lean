import DtdConformance.Proofs.Correlation.Order
import Mathlib.Data.List.Forall2

/-! # Start tags are taken greedily

An element takes the first start tag of its name behind the tags taken before, and none exactly when
there is no such tag. Taking the first one never costs a later element its tag. So all elements find
tags whenever their names stand in this order among the tags, and no choice of tags in order gives
any element an earlier one.
-/
namespace DtdConformance.Correlation
set_option autoImplicit false

open Document Markup
open scoped List

/-- The tag at an index bears the name. -/
def Bears (tags : List TagOccurrence) (index : Nat) (name : String) : Prop :=
  ∃ tag, tags[index]? = some tag ∧ tag.name = name

/-- The indices of the start tags that some elements have taken. -/
def chosen (elements : List (Element Place)) : List Nat :=
  elements.filterMap fun e => e.label.sighting?.map Sighting.index

/-- The names are given tags that bear them, in the order of the tags. -/
structure Assigns (tags : List TagOccurrence) (names : List String) (indices : List Nat) :
    Prop where
  ordered : indices.Pairwise (· < ·)
  named : List.Forall₂ (Bears tags) indices names

/-- The elements take tags one after another. The first index is that of the first tag not passed
before them, and the last that of the first tag not passed after them. -/
inductive Takes (tags : List TagOccurrence) : Nat → List (Element Place) → Nat → Prop
  | done (index : Nat) : Takes tags index [] index
  | take {index last : Nat} {e : Element Place} {rest : List (Element Place)}
      {sighting : Sighting} (hSighting : e.label.sighting? = some sighting)
      (hBehind : index ≤ sighting.index) (hTag : tags[sighting.index]? = some sighting.tag)
      (hName : sighting.tag.name = e.name)
      (hFirst : ∀ k, index ≤ k → Bears tags k e.name → sighting.index ≤ k)
      (hRest : Takes tags (sighting.index + 1) rest last) : Takes tags index (e :: rest) last
  | miss {index last : Nat} {e : Element Place} {rest : List (Element Place)}
      (hSighting : e.label.sighting? = none)
      (hNone : ∀ k, index ≤ k → ¬ Bears tags k e.name)
      (hRest : Takes tags index rest last) : Takes tags index (e :: rest) last

/-! ## Seeking -/

section Seeking

variable {tags : List TagOccurrence}

theorem bears_iff_of_drop {index : Nat} {tag : TagOccurrence} {ahead : List TagOccurrence}
    (hAhead : tags.drop index = tag :: ahead) (name : String) :
    Bears tags index name ↔ tag.name = name := by
  have hHere : tags[index]? = some tag := by
    rw [← List.head?_drop, hAhead, List.head?_cons]
  rw [Bears, hHere]
  simp only [Option.some.injEq, exists_eq_left']

theorem drop_succ_of_drop {index : Nat} {tag : TagOccurrence} {ahead : List TagOccurrence}
    (hAhead : tags.drop index = tag :: ahead) : tags.drop (index + 1) = ahead := by
  rw [← List.tail_drop, hAhead, List.tail_cons]

theorem not_bears_of_seek?_eq_none {name : String} {index : Nat}
    (h : seek? name index (tags.drop index) = none) (k : Nat) (hk : index ≤ k) :
    ¬ Bears tags k name := by
  rintro ⟨tag, hTag, hName⟩
  refine seek?_eq_none_iff.mp h tag ?_ hName
  rw [List.mem_iff_getElem?]
  refine ⟨k - index, ?_⟩
  rw [List.getElem?_drop, Nat.add_sub_cancel' hk, hTag]

/-- Seeking finds the first tag of the name and stops behind it. -/
theorem seek?_first {name : String} {index : Nat} {found : Sighting} {cursor : Cursor}
    (h : seek? name index (tags.drop index) = some (found, cursor)) :
    index ≤ found.index ∧ tags[found.index]? = some found.tag ∧
      (∀ k, index ≤ k → Bears tags k name → found.index ≤ k) ∧
      cursor = ⟨found.index + 1, tags.drop (found.index + 1)⟩ := by
  generalize hAhead : tags.drop index = ahead at h
  induction ahead generalizing index with
  | nil => cases h
  | cons tag ahead ih =>
    have hHere := bears_iff_of_drop hAhead name
    have hBehind := drop_succ_of_drop hAhead
    rw [seek?] at h
    split at h
    · cases h
      refine ⟨Nat.le_refl index, ?_, fun k hk _ => hk, by rw [hBehind]⟩
      rw [← List.head?_drop, hAhead, List.head?_cons]
    · next hOther =>
      obtain ⟨hLess, hTag, hFirst, hCursor⟩ := ih hBehind h
      refine ⟨by omega, hTag, ?_, hCursor⟩
      intro k hk hBears
      apply hFirst k _ hBears
      -- The tag at the index itself bears another name.
      rcases Nat.eq_or_lt_of_le hk with rfl | hLater
      · exact absurd (hHere.mp hBears) hOther
      · exact hLater

end Seeking

/-! ## A tree takes tags -/

theorem Takes.append {tags : List TagOccurrence} {i j k : Nat} {left right : List (Element Place)}
    (hLeft : Takes tags i left j) (hRight : Takes tags j right k) :
    Takes tags i (left ++ right) k := by
  induction hLeft with
  | done => exact hRight
  | take hSighting hBehind hTag hName hFirst _ ih =>
    exact .take hSighting hBehind hTag hName hFirst (ih hRight)
  | miss hSighting hNone _ ih => exact .miss hSighting hNone (ih hRight)

theorem takes_place (tags : List TagOccurrence) (index : Nat) (name : String) (readerLine : Option Nat)
    (content : Content Place) :
    ∃ last, (place ⟨index, tags.drop index⟩ name readerLine).2 = ⟨last, tags.drop last⟩ ∧
      Takes tags index
        [⟨name, (place ⟨index, tags.drop index⟩ name readerLine).1, content⟩] last := by
  unfold place
  split
  · next sighting cursor hFound =>
    obtain ⟨hBehind, hTag, hFirst, hCursor⟩ := seek?_first hFound
    have hName := name_eq_of_seek? hFound
    exact ⟨sighting.index + 1, hCursor, .take rfl hBehind hTag hName hFirst (.done _)⟩
  · next hNone =>
    exact ⟨index, rfl, .miss rfl (not_bears_of_seek?_eq_none hNone) (.done _)⟩

theorem takes_relabel (tags : List TagOccurrence) (content : Content (Option Nat)) (index : Nat) :
    ∃ last, (content.relabel place ⟨index, tags.drop index⟩).2 = ⟨last, tags.drop last⟩ ∧
      Takes tags index (content.relabel place ⟨index, tags.drop index⟩).1.preorder last := by
  induction content generalizing index with
  | done => exact ⟨index, rfl, .done index⟩
  | text _ _ ih => exact ih index
  | aside _ _ ih => exact ih index
  | element name label inner rest ihInner ihRest =>
    simp only [Content.relabel]
    obtain ⟨i, hCursor, hOwn⟩ := takes_place tags index name label
      (inner.relabel place (place ⟨index, tags.drop index⟩ name label).2).1
    rw [hCursor] at hOwn ⊢
    obtain ⟨j, hWithin, hInner⟩ := ihInner i
    rw [hWithin]
    obtain ⟨last, hLast, hRest⟩ := ihRest j
    exact ⟨last, hLast, hOwn.append (hInner.append hRest)⟩

theorem takes_correlate (tags : List TagOccurrence) (root : Element (Option Nat)) :
    ∃ last, Takes tags 0 (correlate tags root).preorder last := by
  obtain ⟨i, hCursor, hOwn⟩ := takes_place tags 0 root.name root.label
    (root.content.relabel place (place ⟨0, tags.drop 0⟩ root.name root.label).2).1
  obtain ⟨last, _, hContent⟩ := takes_relabel tags root.content i
  rw [← hCursor] at hContent
  exact ⟨last, hOwn.append hContent⟩

/-! ## What is taken -/

section Taking

variable {tags : List TagOccurrence} {index last : Nat} {elements : List (Element Place)}

theorem chosen_cons_of_some {e : Element Place} {sighting : Sighting}
    (h : e.label.sighting? = some sighting) (rest : List (Element Place)) :
    chosen (e :: rest) = sighting.index :: chosen rest := by
  rw [chosen, List.filterMap_cons, h]
  rfl

theorem chosen_cons_of_none {e : Element Place} (h : e.label.sighting? = none)
    (rest : List (Element Place)) : chosen (e :: rest) = chosen rest := by
  rw [chosen, List.filterMap_cons, h]
  rfl

theorem Takes.chosen_ordered (h : Takes tags index elements last) :
    (∀ j ∈ chosen elements, index ≤ j) ∧ (chosen elements).Pairwise (· < ·) := by
  induction h with
  | done => exact ⟨fun _ hMem => (List.not_mem_nil hMem).elim, .nil⟩
  | take hSighting hBehind _ _ _ _ ih =>
    obtain ⟨hFrom, hOrdered⟩ := ih
    rw [chosen_cons_of_some hSighting]
    constructor
    · intro j hj
      rcases List.mem_cons.mp hj with rfl | hRest
      · exact hBehind
      · have := hFrom j hRest
        omega
    · exact .cons (fun j hj => hFrom j hj) hOrdered
  | miss hSighting _ _ ih => rwa [chosen_cons_of_none hSighting]

theorem Takes.named (h : Takes tags index elements last) : ∀ e ∈ elements, ∀ sighting,
    e.label.sighting? = some sighting →
      tags[sighting.index]? = some sighting.tag ∧ sighting.tag.name = e.name := by
  induction h with
  | done => exact fun _ hMem => (List.not_mem_nil hMem).elim
  | take hSighting _ hTag hName _ _ ih =>
    intro e hMem sighting hOwn
    rcases List.mem_cons.mp hMem with rfl | hRest
    · cases hSighting.symm.trans hOwn
      exact ⟨hTag, hName⟩
    · exact ih e hRest sighting hOwn
  | miss hSighting _ _ ih =>
    intro e hMem sighting hOwn
    rcases List.mem_cons.mp hMem with rfl | hRest
    · cases hSighting.symm.trans hOwn
    · exact ih e hRest sighting hOwn

/-- An element goes without a tag exactly when none of its name is left behind those taken. -/
theorem Takes.missed_iff {before after : List (Element Place)} {e : Element Place}
    (h : Takes tags index (before ++ e :: after) last) :
    e.label.sighting? = none ↔
      ∀ k, index ≤ k → (∀ j ∈ chosen before, j < k) → ¬ Bears tags k e.name := by
  induction before generalizing index with
  | nil =>
    cases h with
    | take hSighting hBehind hTag hName _ _ =>
      constructor
      · intro hNone
        cases hSighting.symm.trans hNone
      · intro hLeft
        exact absurd ⟨_, hTag, hName⟩ (hLeft _ hBehind fun _ hMem => (List.not_mem_nil hMem).elim)
    | miss hSighting hNone _ => exact ⟨fun _ k hk _ => hNone k hk, fun _ => hSighting⟩
  | cons b before ih =>
    cases h with
    | take hSighting hBehind _ _ _ hRest =>
      rw [ih hRest, chosen_cons_of_some hSighting]
      simp only [List.forall_mem_cons]
      constructor
      · rintro hLeft k _ ⟨hLater, hBefore⟩
        exact hLeft k hLater hBefore
      · intro hLeft k hLater hBefore
        exact hLeft k (by omega) ⟨hLater, hBefore⟩
    | miss hSighting _ hRest => rw [ih hRest, chosen_cons_of_none hSighting]

/-- Elements whose names have tags in order all find tags, and none of them a later one. -/
theorem Takes.sighted_of_assigns (h : Takes tags index elements last) {indices : List Nat}
    (hAssigns : Assigns tags (elements.map Element.name) indices)
    (hFrom : ∀ j ∈ indices, index ≤ j) :
    (∀ e ∈ elements, e.label.isSighted = true) ∧
      List.Forall₂ (· ≤ ·) (chosen elements) indices := by
  induction h generalizing indices with
  | done =>
    obtain ⟨_, hNamed⟩ := hAssigns
    cases hNamed
    exact ⟨fun _ hMem => (List.not_mem_nil hMem).elim, .nil⟩
  | @take index last e rest sighting hSighting _ _ _ hFirst _ ih =>
    obtain ⟨hOrdered, hNamed⟩ := hAssigns
    cases hNamed with
    | @cons j _ js _ hBears hNamed =>
      obtain ⟨hLess, hOrdered⟩ := List.pairwise_cons.mp hOrdered
      have hLe : sighting.index ≤ j := hFirst j (hFrom j List.mem_cons_self) hBears
      -- The tags given to the later elements stand behind the one that is taken here.
      obtain ⟨hSighted, hAll⟩ := ih ⟨hOrdered, hNamed⟩ fun k hk => by
        have := hLess k hk
        omega
      rw [chosen_cons_of_some hSighting]
      refine ⟨?_, .cons hLe hAll⟩
      rw [List.forall_mem_cons]
      exact ⟨by rw [Place.isSighted, hSighting]; rfl, hSighted⟩
  | miss _ hNone _ _ =>
    obtain ⟨_, hNamed⟩ := hAssigns
    cases hNamed with
    | cons hBears _ => exact absurd hBears (hNone _ (hFrom _ List.mem_cons_self))

theorem Takes.assigns_of_sighted (h : Takes tags index elements last)
    (hSighted : ∀ e ∈ elements, e.label.isSighted = true) :
    Assigns tags (elements.map Element.name) (chosen elements) := by
  refine ⟨h.chosen_ordered.2, ?_⟩
  induction h with
  | done => exact .nil
  | take hSighting _ hTag hName _ _ ih =>
    rw [List.forall_mem_cons] at hSighted
    rw [chosen_cons_of_some hSighting, List.map_cons]
    exact .cons ⟨_, hTag, hName⟩ (ih hSighted.2)
  | miss hSighting _ _ _ =>
    have hOwn := hSighted _ List.mem_cons_self
    rw [Place.isSighted, hSighting] at hOwn
    cases hOwn

end Taking

/-! ## Names among tags -/

theorem sublist_of_assigns {tags : List TagOccurrence} {names : List String} {indices : List Nat}
    (h : Assigns tags names indices) {index : Nat} (hFrom : ∀ j ∈ indices, index ≤ j) :
    names <+ (tags.drop index).map TagOccurrence.name := by
  obtain ⟨hOrdered, hNamed⟩ := h
  induction hNamed generalizing index with
  | nil => exact List.nil_sublist _
  | @cons j name js names hBears _ ih =>
    obtain ⟨tag, hTag, hName⟩ := hBears
    obtain ⟨hLess, hOrdered⟩ := List.pairwise_cons.mp hOrdered
    obtain ⟨hBound, hHere⟩ := List.getElem?_eq_some_iff.mp hTag
    have hDrop : tags.drop j = tag :: tags.drop (j + 1) := by
      rw [List.drop_eq_getElem_cons hBound, hHere]
    calc name :: names
      _ <+ tag.name :: (tags.drop (j + 1)).map TagOccurrence.name := by
        rw [hName]
        exact (ih (fun k hk => hLess k hk) hOrdered).cons_cons name
      _ = (tags.drop j).map TagOccurrence.name := by rw [hDrop, List.map_cons]
      _ <+ (tags.drop index).map TagOccurrence.name :=
        (List.drop_sublist_drop_left tags (hFrom j List.mem_cons_self)).map _

/-- Names can be given tags in order exactly when they are a subsequence of the names of the
tags. -/
theorem exists_assigns_iff (tags : List TagOccurrence) (names : List String) :
    (∃ indices, Assigns tags names indices) ↔ names <+ tags.map TagOccurrence.name := by
  constructor
  · rintro ⟨indices, hAssigns⟩
    exact sublist_of_assigns hAssigns fun j _ => Nat.zero_le j
  · intro h
    obtain ⟨places, hNames, hOrdered⟩ := List.sublist_eq_map_getElem h
    refine ⟨places.map Fin.val, hOrdered.map Fin.val fun _ _ hLess => hLess, ?_⟩
    rw [hNames, List.forall₂_map_left_iff, List.forall₂_map_right_iff, List.forall₂_same]
    intro i _
    have hBound : i.val < tags.length := by simpa using i.isLt
    exact ⟨tags[i.val], List.getElem?_eq_getElem hBound, by simp⟩

/-! ## The elements of a tree -/

/-- What holds of the elements of a tree, in document order, that have taken tags greedily. -/
structure Greedy (tags : List TagOccurrence) (elements : List (Element Place)) : Prop where
  ordered : (chosen elements).Pairwise (· < ·)
  named : ∀ e ∈ elements, ∀ sighting, e.label.sighting? = some sighting →
    tags[sighting.index]? = some sighting.tag ∧ sighting.tag.name = e.name
  /-- An element goes without a tag exactly when none of its name stands behind those taken by the
  elements before it. -/
  missed : ∀ before e after, elements = before ++ e :: after →
    (e.label.sighting? = none ↔
      ∀ k tag, tags[k]? = some tag → (∀ j ∈ chosen before, j < k) → tag.name ≠ e.name)
  complete : (∀ e ∈ elements, e.label.isSighted = true) ↔
    elements.map Element.name <+ tags.map TagOccurrence.name
  least : (∀ e ∈ elements, e.label.isSighted = true) →
    Assigns tags (elements.map Element.name) (chosen elements) ∧
      ∀ indices, Assigns tags (elements.map Element.name) indices →
        List.Forall₂ (· ≤ ·) (chosen elements) indices

theorem Takes.greedy {tags : List TagOccurrence} {elements : List (Element Place)} {last : Nat}
    (h : Takes tags 0 elements last) : Greedy tags elements where
  ordered := h.chosen_ordered.2
  named := h.named
  missed := by
    rintro before e after rfl
    rw [h.missed_iff]
    constructor
    · intro hLeft k tag hTag hBehind hName
      exact hLeft k (Nat.zero_le k) hBehind ⟨tag, hTag, hName⟩
    · rintro hLeft k _ hBehind ⟨tag, hTag, hName⟩
      exact hLeft k tag hTag hBehind hName
  complete := by
    rw [← exists_assigns_iff]
    constructor
    · intro hSighted
      exact ⟨_, h.assigns_of_sighted hSighted⟩
    · rintro ⟨indices, hAssigns⟩
      exact (h.sighted_of_assigns hAssigns fun j _ => Nat.zero_le j).1
  least := by
    intro hSighted
    refine ⟨h.assigns_of_sighted hSighted, fun indices hAssigns => ?_⟩
    exact (h.sighted_of_assigns hAssigns fun j _ => Nat.zero_le j).2

/-- Whatever tags a tree is laid against, its elements keep their names and take tags greedily. -/
theorem correlate_greedy (tags : List TagOccurrence) (root : Element (Option Nat)) :
    (correlate tags root).preorder.map Element.name = root.preorder.map Element.name ∧
      Greedy tags (correlate tags root).preorder := by
  obtain ⟨last, hTakes⟩ := takes_correlate tags root
  refine ⟨?_, hTakes.greedy⟩
  have hShape : (correlate tags root).map (fun _ => ()) = root.map (fun _ => ()) :=
    Element.map_relabel (f := place) (g := fun _ => ()) (k := fun _ => ()) (fun _ _ _ => rfl) ..
  calc (correlate tags root).preorder.map Element.name
    _ = ((correlate tags root).map (fun _ => ())).preorder.map Element.name :=
      (Element.map_name_preorder _ _).symm
    _ = (root.map (fun _ => ())).preorder.map Element.name := by rw [hShape]
    _ = root.preorder.map Element.name := Element.map_name_preorder _ _

end DtdConformance.Correlation
