import DtdConformance.Correlation
import DtdConformance.Proofs.Document.Label

/-! # Start tags are taken in order

The cursor never goes back. Whatever tree is laid against a text, its elements in document order
take start tags that follow one another in the text.
-/
namespace DtdConformance.Correlation
set_option autoImplicit false

open Document Markup
open scoped List

/-- The start tags that some elements have taken, in the order of the elements. -/
def taken (elements : List (Element Place)) : List TagOccurrence :=
  elements.filterMap fun e => e.label.sighting?.map Sighting.tag

theorem taken_append (left right : List (Element Place)) :
    taken (left ++ right) = taken left ++ taken right :=
  List.filterMap_append

theorem seek?_sublist {name : String} {index : Nat} {tags : List TagOccurrence} {found : Sighting}
    {cursor : Cursor} (h : seek? name index tags = some (found, cursor)) :
    found.tag :: cursor.ahead <+ tags := by
  induction tags generalizing index with
  | nil => cases h
  | cons tag ahead ih =>
    rw [seek?] at h
    split at h
    · cases h
      exact List.Sublist.refl _
    · exact (ih h).cons tag

theorem taken_place_sublist (cursor : Cursor) (name : String) (readerLine : Option Nat)
    (content : Content Place) :
    taken [⟨name, (place cursor name readerLine).1, content⟩] ++
      (place cursor name readerLine).2.ahead <+ cursor.ahead := by
  unfold place
  split
  · next hFound => exact seek?_sublist hFound
  · exact List.Sublist.refl _

/-- What a content takes comes before what is ahead afterwards. -/
theorem taken_relabel_sublist (content : Content (Option Nat)) (cursor : Cursor) :
    taken (content.relabel place cursor).1.preorder ++ (content.relabel place cursor).2.ahead <+
      cursor.ahead := by
  induction content generalizing cursor with
  | done => exact List.Sublist.refl _
  | text _ _ ih => exact ih cursor
  | aside _ _ ih => exact ih cursor
  | element name label inner rest ihInner ihRest =>
    -- The element, its content and what stands behind it take one after another, each of what the
    -- one before has left ahead.
    let own := place cursor name label
    let within := inner.relabel place own.2
    let behind := rest.relabel place within.2
    have hSplit : taken (⟨name, own.1, within.1⟩ :: (within.1.preorder ++ behind.1.preorder)) =
        taken [⟨name, own.1, within.1⟩] ++ (taken within.1.preorder ++ taken behind.1.preorder) := by
      rw [← taken_append, ← taken_append, List.singleton_append]
    change taken (⟨name, own.1, within.1⟩ :: (within.1.preorder ++ behind.1.preorder)) ++
      behind.2.ahead <+ cursor.ahead
    rw [hSplit, List.append_assoc, List.append_assoc]
    calc
      _ <+ taken [⟨name, own.1, within.1⟩] ++ (taken within.1.preorder ++ within.2.ahead) :=
        ((ihRest within.2).append_left _).append_left _
      _ <+ taken [⟨name, own.1, within.1⟩] ++ own.2.ahead := (ihInner own.2).append_left _
      _ <+ cursor.ahead := taken_place_sublist cursor name label within.1

theorem taken_correlate_sublist (tags : List TagOccurrence) (root : Element (Option Nat)) :
    taken (correlate tags root).preorder <+ tags := by
  let own := place ⟨0, tags⟩ root.name root.label
  let within := root.content.relabel place own.2
  have hSplit : taken (correlate tags root).preorder =
      taken [⟨root.name, own.1, within.1⟩] ++ taken within.1.preorder := by
    rw [← taken_append]
    rfl
  have hWithin : taken within.1.preorder <+ own.2.ahead :=
    (List.sublist_append_left _ _).trans (taken_relabel_sublist root.content own.2)
  rw [hSplit]
  exact (hWithin.append_left _).trans (taken_place_sublist ⟨0, tags⟩ root.name root.label within.1)

theorem labels_lines (root : Element Place) :
    (lines false root).preorder.filterMap Element.label =
      if sightedCount root = 0 then [] else (taken root.preorder).map TagOccurrence.line := by
  unfold lines
  split
  · rw [Element.preorder_map, List.filterMap_map, List.filterMap_eq_nil_iff]
    intro _ _
    rfl
  · have hLine : Element.label ∘ Element.map (Place.line false) = fun e : Element Place =>
        (e.label.sighting?.map Sighting.tag).map TagOccurrence.line := by
      funext e
      change e.label.line false = _
      unfold Place.line
      cases e.label.sighting? <;> rfl
    rw [Element.preorder_map, List.filterMap_map, hLine, taken, List.map_filterMap]

theorem labels_lines_sublist (root : Element Place) :
    (lines false root).preorder.filterMap Element.label <+
      (taken root.preorder).map TagOccurrence.line := by
  rw [labels_lines]
  split
  · exact List.nil_sublist _
  · exact List.Sublist.refl _

end DtdConformance.Correlation
