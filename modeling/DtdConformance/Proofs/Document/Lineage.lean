import DtdConformance.Proofs.Document.Label

/-! # Elements and the names around them

Every element of a tree stands in a line of elements that reaches up to the root. Some names are
open: an element of the tree is reached when all names around it are. Pruning empties the elements
whose own name is not open, so that a pruned tree shows what is reached and nothing else.
-/
namespace DtdConformance.Document
set_option autoImplicit false

variable {α β : Type}

namespace Content

/-- The elements in document order, each with the names around it from the inside out. -/
def lineage (around : List String) : Content α → List (List String × Element α)
  | done => []
  | text _ rest => rest.lineage around
  | aside _ rest => rest.lineage around
  | element name label inner rest =>
    (around, ⟨name, label, inner⟩) :: (inner.lineage (name :: around) ++ rest.lineage around)

def prune (isOpen : String → Bool) : Content α → Content α
  | done => done
  | text chars rest => text chars (rest.prune isOpen)
  | aside kind rest => aside kind (rest.prune isOpen)
  | element name label inner rest =>
    element name label (if isOpen name then inner.prune isOpen else done) (rest.prune isOpen)

attribute [local simp] map children directText preorder lineage prune

theorem map_snd_lineage (around : List String) (content : Content α) :
    (content.lineage around).map Prod.snd = content.preorder := by
  induction content generalizing around with
  | done => rfl
  | text _ _ ih => exact ih around
  | aside _ _ ih => exact ih around
  | element name _ _ _ ihInner ihRest =>
    simp [ihInner, ihRest]

theorem lineage_map (f : α → β) (around : List String) (content : Content α) :
    (content.map f).lineage around =
      (content.lineage around).map fun entry => (entry.1, entry.2.map f) := by
  induction content generalizing around with
  | done => rfl
  | text _ _ ih => exact ih around
  | aside _ _ ih => exact ih around
  | element name label inner rest ihInner ihRest =>
    simp [ihInner, ihRest, Element.map]

theorem suffix_of_mem_lineage {around : List String} {content : Content α}
    {entry : List String × Element α} (h : entry ∈ content.lineage around) :
    around <:+ entry.1 := by
  induction content generalizing around with
  | done => cases h
  | text _ _ ih => exact ih h
  | aside _ _ ih => exact ih h
  | element name _ _ _ ihInner ihRest =>
    rcases List.mem_cons.mp h with rfl | hBelow
    · exact List.suffix_rfl
    · rcases List.mem_append.mp hBelow with hInner | hRest
      · exact (List.suffix_cons name around).trans (ihInner hInner)
      · exact ihRest hRest

/-- The elements of a content that are reached when the names around the content are given. -/
def reached (isOpen : String → Bool) (around : List String) (content : Content α) :
    List (Element α) :=
  ((content.lineage around).filter fun entry => entry.1.all isOpen).map Prod.snd

theorem reached_of_closed {isOpen : String → Bool} {around : List String}
    (h : around.all isOpen = false) (content : Content α) : content.reached isOpen around = [] := by
  rw [reached, List.map_eq_nil_iff, List.filter_eq_nil_iff]
  intro entry hEntry hOpen
  obtain ⟨inside, hInside⟩ := suffix_of_mem_lineage hEntry
  rw [← hInside, List.all_append, h, Bool.and_false] at hOpen
  cases hOpen

theorem reached_element {isOpen : String → Bool} {around : List String}
    (h : around.all isOpen = true) (name : String) (label : α) (inner rest : Content α) :
    (element name label inner rest).reached isOpen around =
      ⟨name, label, inner⟩ ::
        ((if isOpen name then inner.reached isOpen (name :: around) else []) ++
          rest.reached isOpen around) := by
  have hInner : inner.reached isOpen (name :: around) =
      if isOpen name then inner.reached isOpen (name :: around) else [] := by
    split
    · rfl
    · next hClosed => exact reached_of_closed (by simp [hClosed]) inner
  rw [← hInner, reached, lineage, List.filter_cons_of_pos (by exact h), List.map_cons,
    List.filter_append, List.map_append]
  rfl

theorem reached_map (f : α → β) (isOpen : String → Bool) (around : List String)
    (content : Content α) :
    (content.map f).reached isOpen around =
      (content.reached isOpen around).map (Element.map f) := by
  simp only [reached, lineage_map, List.filter_map, List.map_map]
  rfl

theorem names_children_prune (isOpen : String → Bool) (content : Content α) :
    (content.prune isOpen).children.map Element.name = content.children.map Element.name := by
  induction content with
  | done => rfl
  | text _ _ ih => exact ih
  | aside _ _ ih => exact ih
  | element name _ _ _ _ ihRest => simp [ihRest]

theorem directText_prune (isOpen : String → Bool) (content : Content α) :
    (content.prune isOpen).directText = content.directText := by
  induction content with
  | done => rfl
  | text _ _ ih => simp [ih]
  | aside _ _ ih => exact ih
  | element _ _ _ _ _ ihRest => exact ihRest

theorem prune_map (f : α → β) (isOpen : String → Bool) (content : Content α) :
    (content.map f).prune isOpen = (content.prune isOpen).map f := by
  induction content with
  | done => rfl
  | text _ _ ih => simp [ih]
  | aside _ _ ih => simp [ih]
  | element name _ _ _ ihInner ihRest =>
    simp only [map, prune, ihInner, ihRest]
    split <;> rfl

end Content

namespace Element

def lineage (e : Element α) : List (List String × Element α) :=
  ([], e) :: e.content.lineage [e.name]

def prune (isOpen : String → Bool) (e : Element α) : Element α :=
  ⟨e.name, e.label, if isOpen e.name then e.content.prune isOpen else .done⟩

/-- The elements with open names alone around them, in document order. -/
def reached (isOpen : String → Bool) (e : Element α) : List (Element α) :=
  (e.lineage.filter fun entry => entry.1.all isOpen).map Prod.snd

/-- The lineage lists every element of the tree once. -/
theorem map_snd_lineage (e : Element α) : e.lineage.map Prod.snd = e.preorder := by
  rw [lineage, List.map_cons, Content.map_snd_lineage]
  rfl

theorem reached_sublist (isOpen : String → Bool) (e : Element α) :
    (e.reached isOpen).Sublist e.preorder := by
  rw [← e.map_snd_lineage]
  exact List.filter_sublist.map Prod.snd

theorem reached_eq_cons (isOpen : String → Bool) (e : Element α) :
    e.reached isOpen =
      e :: if isOpen e.name then e.content.reached isOpen [e.name] else [] := by
  have hContent : e.content.reached isOpen [e.name] =
      if isOpen e.name then e.content.reached isOpen [e.name] else [] := by
    split
    · rfl
    · next hClosed => exact Content.reached_of_closed (by simp [hClosed]) e.content
  rw [← hContent]
  rfl

theorem reached_map (f : α → β) (isOpen : String → Bool) (e : Element α) :
    (e.map f).reached isOpen = (e.reached isOpen).map (map f) := by
  rw [reached_eq_cons, reached_eq_cons]
  change _ = map f e :: _
  rw [map, Content.reached_map]
  dsimp only
  split <;> rfl

theorem prune_map (f : α → β) (isOpen : String → Bool) (e : Element α) :
    (e.map f).prune isOpen = (e.prune isOpen).map f := by
  simp only [prune, map, Content.prune_map]
  split <;> rfl

end Element

end DtdConformance.Document
