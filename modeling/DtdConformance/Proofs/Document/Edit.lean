import Mathlib.Logic.Relation
import DtdConformance.Proofs.Document.Lineage
import DtdConformance.Text.Blank

/-! # Edits of a content

Asides and blanks may be put into the content of any element of a tree, and blanks may be taken out
of it. A tree is gathered when the text of every element stands in one piece before its children.
Putting in asides does not show in the gathered tree, and neither do blanks when only the other
characters are kept.
-/
namespace DtdConformance.Document
set_option autoImplicit false

open Text (isBlank)

variable {α : Type}

namespace Content

/-! ## Edits -/

/-- One aside more, between two nodes, at an end of the content or in the middle of a text. -/
inductive PutsAside : Content α → Content α → Prop
  | before (kind : Aside) (rest : Content α) : PutsAside rest (aside kind rest)
  | amid (kind : Aside) (front back : List Char) (rest : Content α) :
    PutsAside (text (front ++ back) rest) (text front (aside kind (text back rest)))

/-- One blank more, in a text or as a text of its own. -/
inductive PutsBlank : Content α → Content α → Prop
  | amid {b : Char} (h : isBlank b = true) (front back : List Char) (rest : Content α) :
    PutsBlank (text (front ++ back) rest) (text (front ++ b :: back) rest)
  | alone {b : Char} (h : isBlank b = true) (rest : Content α) : PutsBlank rest (text [b] rest)

/-- One aside more, one blank more or one blank less. -/
inductive Respaces : Content α → Content α → Prop
  | aside {content other : Content α} (h : PutsAside content other) : Respaces content other
  | blank {content other : Content α} (h : PutsBlank content other) : Respaces content other
  | noBlank {content other : Content α} (h : PutsBlank other content) : Respaces content other

/-- The change is made at one place of the content, at any depth. -/
inductive Edits (change : Content α → Content α → Prop) : Content α → Content α → Prop
  | here {content other : Content α} (h : change content other) : Edits change content other
  | afterText (chars : List Char) {rest other : Content α} (h : Edits change rest other) :
    Edits change (text chars rest) (text chars other)
  | afterAside (kind : Aside) {rest other : Content α} (h : Edits change rest other) :
    Edits change (aside kind rest) (aside kind other)
  | inside (name : String) (label : α) {inner other : Content α} (rest : Content α)
    (h : Edits change inner other) :
    Edits change (element name label inner rest) (element name label other rest)
  | afterElement (name : String) (label : α) (inner : Content α) {rest other : Content α}
    (h : Edits change rest other) :
    Edits change (element name label inner rest) (element name label inner other)

/-! ## Gathering -/

/-- The elements alone, each of them gathered. -/
def gatherInside (keeps : Char → Bool) : Content α → Content α
  | done => done
  | text _ rest => rest.gatherInside keeps
  | aside _ rest => rest.gatherInside keeps
  | element name label inner rest =>
    element name label (text (inner.directText.filter keeps) (inner.gatherInside keeps))
      (rest.gatherInside keeps)

/-- The kept characters of the text in one piece, and the gathered elements behind it. -/
def gather (keeps : Char → Bool) (content : Content α) : Content α :=
  text (content.directText.filter keeps) (content.gatherInside keeps)

theorem gatherInside_element (keeps : Char → Bool) (name : String) (label : α)
    (inner rest : Content α) :
    (element name label inner rest).gatherInside keeps =
      element name label (inner.gather keeps) (rest.gatherInside keeps) := rfl

theorem directText_gatherInside (keeps : Char → Bool) (content : Content α) :
    (content.gatherInside keeps).directText = [] := by
  induction content with
  | done => rfl
  | text _ _ ih => exact ih
  | aside _ _ ih => exact ih
  | element _ _ _ _ _ ihRest => exact ihRest

theorem names_children_gatherInside (keeps : Char → Bool) (content : Content α) :
    (content.gatherInside keeps).children.map Element.name =
      content.children.map Element.name := by
  induction content with
  | done => rfl
  | text _ _ ih => exact ih
  | aside _ _ ih => exact ih
  | element name _ _ _ _ ihRest => simp only [gatherInside, children, List.map_cons, ihRest]

end Content

namespace Element

/-- The second element is the first after any number of changes in its content. -/
structure Edited (change : Content α → Content α → Prop) (e other : Element α) : Prop where
  name_eq : other.name = e.name
  label_eq : other.label = e.label
  content : Relation.ReflTransGen (Content.Edits change) e.content other.content

def gather (keeps : Char → Bool) (e : Element α) : Element α :=
  ⟨e.name, e.label, e.content.gather keeps⟩

theorem directText_gather (keeps : Char → Bool) (e : Element α) :
    (e.gather keeps).directText = e.directText.filter keeps := by
  change e.directText.filter keeps ++ (e.content.gatherInside keeps).directText = _
  rw [Content.directText_gatherInside, List.append_nil]

theorem names_children_gather (keeps : Char → Bool) (e : Element α) :
    (e.gather keeps).children.map name = e.children.map name :=
  Content.names_children_gatherInside keeps e.content

end Element

/-! ## Gathered trees have the same elements -/

theorem Content.lineage_gatherInside (keeps : Char → Bool) (around : List String)
    (content : Content α) :
    (content.gatherInside keeps).lineage around =
      (content.lineage around).map fun entry => (entry.1, entry.2.gather keeps) := by
  induction content generalizing around with
  | done => rfl
  | text _ _ ih => exact ih around
  | aside _ _ ih => exact ih around
  | element name label inner rest ihInner ihRest =>
    simp only [gatherInside, lineage, List.map_cons, List.map_append, ihInner, ihRest]
    rfl

theorem Element.reached_gather (keeps : Char → Bool) (isOpen : String → Bool) (e : Element α) :
    (e.gather keeps).reached isOpen = (e.reached isOpen).map (gather keeps) := by
  have hLineage : (e.gather keeps).lineage =
      e.lineage.map fun entry => (entry.1, entry.2.gather keeps) :=
    congrArg (([], e.gather keeps) :: ·) (Content.lineage_gatherInside keeps [e.name] e.content)
  simp only [reached, hLineage, List.filter_map, List.map_map]
  rfl

/-! ## What an edit leaves as it is -/

section

variable {change : Content α → Content α → Prop} {keeps : Char → Bool} {content other : Content α}

theorem Content.PutsAside.gather_eq (keeps : Char → Bool) (h : PutsAside content other) :
    other.gather keeps = content.gather keeps := by
  cases h with
  | before => rfl
  | amid kind front back rest => simp [gather, gatherInside, directText]

theorem Content.PutsBlank.gather_eq (h : PutsBlank content other) :
    other.gather (fun c => !isBlank c) = content.gather (fun c => !isBlank c) := by
  cases h with
  | amid hBlank => simp [gather, gatherInside, directText, hBlank]
  | alone hBlank => simp [gather, gatherInside, directText, hBlank]

theorem Content.Respaces.gather_eq (h : Respaces content other) :
    other.gather (fun c => !isBlank c) = content.gather (fun c => !isBlank c) := by
  cases h with
  | aside hAside => exact hAside.gather_eq _
  | blank hBlank => exact hBlank.gather_eq
  | noBlank hBlank => exact hBlank.gather_eq.symm

/-- A change that does not show at its own place does not show at any depth. -/
theorem Content.Edits.gather_eq
    (hChange : ∀ content other, change content other → other.gather keeps = content.gather keeps)
    (h : Edits change content other) : other.gather keeps = content.gather keeps := by
  induction h with
  | here hHere => exact hChange _ _ hHere
  | afterText chars _ ih =>
    injection ih with hText hInside
    simp only [gather, gatherInside, directText, List.filter_append, hText, hInside]
  | afterAside _ _ ih => exact ih
  | inside name label rest _ ih =>
    rw [gather, gather, gatherInside_element, gatherInside_element, ih]
    rfl
  | afterElement name label inner _ ih =>
    injection ih with hText hInside
    rw [gather, gather, gatherInside_element, gatherInside_element, hInside]
    simp only [directText, hText]

theorem Content.gather_eq_of_reflTransGen
    (hChange : ∀ content other, change content other → other.gather keeps = content.gather keeps)
    (h : Relation.ReflTransGen (Edits change) content other) :
    other.gather keeps = content.gather keeps := by
  induction h with
  | refl => rfl
  | tail _ hLast ih => exact (hLast.gather_eq hChange).trans ih

theorem Element.Edited.gather_eq {e edited : Element α}
    (hChange : ∀ content other, change content other → other.gather keeps = content.gather keeps)
    (h : e.Edited change edited) : edited.gather keeps = e.gather keeps := by
  rw [gather, gather, h.name_eq, h.label_eq, Content.gather_eq_of_reflTransGen hChange h.content]

end

end DtdConformance.Document
