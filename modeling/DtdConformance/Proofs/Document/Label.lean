import DtdConformance.Document.Tree

/-! # Labels of a tree

New labels leave names, texts and the order of elements as they are. The elements of a tree are its
root and those of the trees below it. The skeleton of a tree has its elements and nothing else.
-/
namespace DtdConformance.Document
set_option autoImplicit false

variable {α β γ σ : Type}

namespace Content

attribute [local simp] map relabel children directText preorder

theorem children_map (f : α → β) (content : Content α) :
    (content.map f).children = content.children.map (Element.map f) := by
  induction content with
  | done => rfl
  | text _ _ ih => exact ih
  | aside _ _ ih => exact ih
  | element name label inner rest _ ihRest =>
    rw [map, children, children, List.map_cons, ihRest]
    rfl

theorem directText_map (f : α → β) (content : Content α) :
    (content.map f).directText = content.directText := by
  induction content with
  | done => rfl
  | text chars rest ih => simp [ih]
  | aside _ _ ih => exact ih
  | element _ _ _ _ _ ihRest => exact ihRest

theorem preorder_map (f : α → β) (content : Content α) :
    (content.map f).preorder = content.preorder.map (Element.map f) := by
  induction content with
  | done => rfl
  | text _ _ ih => exact ih
  | aside _ _ ih => exact ih
  | element name label inner rest ihInner ihRest =>
    simp [ihInner, ihRest, Element.map]

theorem map_map (f : α → β) (g : β → γ) (content : Content α) :
    (content.map f).map g = content.map (fun label => g (f label)) := by
  induction content with
  | done => rfl
  | text _ _ ih => simp [ih]
  | aside _ _ ih => simp [ih]
  | element _ _ _ _ ihInner ihRest => simp [ihInner, ihRest]

theorem map_self (content : Content α) : content.map (fun label => label) = content := by
  induction content with
  | done => rfl
  | text _ _ ih => simp [ih]
  | aside _ _ ih => simp [ih]
  | element _ _ _ _ ihInner ihRest => simp [ihInner, ihRest]

/-- A relabelling changes labels alone: what each new label still shows of the old one is read off
the old tree. -/
theorem map_relabel {f : σ → String → α → β × σ} {g : β → γ} {k : α → γ}
    (hLabel : ∀ state name label, g (f state name label).1 = k label) (state : σ)
    (content : Content α) : (content.relabel f state).1.map g = content.map k := by
  induction content generalizing state with
  | done => rfl
  | text _ _ ih => simp [ih]
  | aside _ _ ih => simp [ih]
  | element _ _ _ _ ihInner ihRest => simp [hLabel, ihInner, ihRest]

theorem preorder_eq_flatMap_children (content : Content α) :
    content.preorder = content.children.flatMap Element.preorder := by
  induction content with
  | done => rfl
  | text _ _ ih => exact ih
  | aside _ _ ih => exact ih
  | element name label inner rest _ ihRest =>
    rw [preorder, children, List.flatMap_cons, ihRest]
    rfl

def skeleton : Content α → Content α
  | done => done
  | text _ rest => rest.skeleton
  | aside _ rest => rest.skeleton
  | element name label inner rest => element name label inner.skeleton rest.skeleton

theorem skeleton_map (f : α → β) (content : Content α) :
    (content.map f).skeleton = content.skeleton.map f := by
  induction content with
  | done => rfl
  | text _ _ ih => exact ih
  | aside _ _ ih => exact ih
  | element _ _ _ _ ihInner ihRest => simp [skeleton, ihInner, ihRest]

end Content

namespace Element

theorem children_map (f : α → β) (e : Element α) : (e.map f).children = e.children.map (map f) :=
  e.content.children_map f

theorem directText_map (f : α → β) (e : Element α) : (e.map f).directText = e.directText :=
  e.content.directText_map f

theorem preorder_map (f : α → β) (e : Element α) :
    (e.map f).preorder = e.preorder.map (map f) := by
  simp only [preorder, List.map_cons]
  rw [← Content.preorder_map]
  rfl

theorem map_name_preorder (f : α → β) (e : Element α) :
    (e.map f).preorder.map name = e.preorder.map name := by
  rw [preorder_map, List.map_map]
  rfl

theorem map_map (f : α → β) (g : β → γ) (e : Element α) :
    (e.map f).map g = e.map (fun label => g (f label)) := by
  simp only [map, Content.map_map]

theorem map_self (e : Element α) : e.map (fun label => label) = e := by
  simp only [map, Content.map_self]

theorem map_relabel {f : σ → String → α → β × σ} {g : β → γ} {k : α → γ}
    (hLabel : ∀ state name label, g (f state name label).1 = k label) (state : σ)
    (e : Element α) : (e.relabel f state).1.map g = e.map k := by
  simp only [relabel, map, hLabel, Content.map_relabel hLabel]

theorem preorder_eq_cons_flatMap (e : Element α) :
    e.preorder = e :: e.children.flatMap preorder := by
  rw [preorder, Content.preorder_eq_flatMap_children]
  rfl

def skeleton (e : Element α) : Element α := ⟨e.name, e.label, e.content.skeleton⟩

theorem skeleton_map (f : α → β) (e : Element α) : (e.map f).skeleton = e.skeleton.map f := by
  simp only [skeleton, map, Content.skeleton_map]

end Element

end DtdConformance.Document
