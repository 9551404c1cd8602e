/-! # Document trees

A document is an element, and the content of an element is a sequence of texts, asides and
elements. Comments, processing instructions and references to entities are asides: they hold no
text and no element of the document. Every element carries a label, such as the line on which it
was read.
-/
namespace DtdConformance.Document
set_option autoImplicit false

inductive Aside where
  | comment
  | instruction
  | entityReference
  deriving Repr, DecidableEq

/-- The rest of the content of an element. -/
inductive Content (α : Type) where
  | done
  | text (chars : List Char) (rest : Content α)
  | aside (kind : Aside) (rest : Content α)
  | element (name : String) (label : α) (inner rest : Content α)
  deriving Repr, DecidableEq

structure Element (α : Type) where
  name : String
  label : α
  content : Content α
  deriving Repr, DecidableEq

namespace Content

variable {α β : Type}

def children : Content α → List (Element α)
  | done => []
  | text _ rest => rest.children
  | aside _ rest => rest.children
  | element name label inner rest => ⟨name, label, inner⟩ :: rest.children

def directText : Content α → List Char
  | done => []
  | text chars rest => chars ++ rest.directText
  | aside _ rest => rest.directText
  | element _ _ _ rest => rest.directText

def preorder : Content α → List (Element α)
  | done => []
  | text _ rest => rest.preorder
  | aside _ rest => rest.preorder
  | element name label inner rest => ⟨name, label, inner⟩ :: (inner.preorder ++ rest.preorder)

/-- All nodes but texts in document order: the name of an element, or none for an aside. -/
def nodes : Content α → List (Option String)
  | done => []
  | text _ rest => rest.nodes
  | aside _ rest => none :: rest.nodes
  | element name _ inner rest => some name :: (inner.nodes ++ rest.nodes)

/-- The elements in document order, each with the number of elements around it. -/
def outline (depth : Nat) : Content α → List (Nat × Element α)
  | done => []
  | text _ rest => rest.outline depth
  | aside _ rest => rest.outline depth
  | element name label inner rest =>
    (depth, ⟨name, label, inner⟩) :: (inner.outline (depth + 1) ++ rest.outline depth)

def elementCount : Content α → Nat
  | done => 0
  | text _ rest => rest.elementCount
  | aside _ rest => rest.elementCount
  | element _ _ inner rest => 1 + inner.elementCount + rest.elementCount

/-- Gives every element a new label. The labels depend on a state that passes through the elements
in document order. -/
def relabel {σ : Type} (f : σ → String → α → β × σ) (state : σ) : Content α → Content β × σ
  | done => (done, state)
  | text chars rest =>
    let (rest, state) := relabel f state rest
    (text chars rest, state)
  | aside kind rest =>
    let (rest, state) := relabel f state rest
    (aside kind rest, state)
  | element name label inner rest =>
    let (label, state) := f state name label
    let (inner, state) := relabel f state inner
    let (rest, state) := relabel f state rest
    (element name label inner rest, state)

def map (f : α → β) : Content α → Content β
  | done => done
  | text chars rest => text chars (rest.map f)
  | aside kind rest => aside kind (rest.map f)
  | element name label inner rest => element name (f label) (inner.map f) (rest.map f)

end Content

namespace Element

variable {α β : Type}

def children (e : Element α) : List (Element α) := e.content.children

def directText (e : Element α) : List Char := e.content.directText

def preorder (e : Element α) : List (Element α) := e :: e.content.preorder

def nodes (e : Element α) : List (Option String) := some e.name :: e.content.nodes

def outline (e : Element α) : List (Nat × Element α) := (0, e) :: e.content.outline 1

def elementCount (e : Element α) : Nat := 1 + e.content.elementCount

def totalCount : List (Element α) → Nat
  | [] => 0
  | e :: rest => e.elementCount + totalCount rest

def relabel {σ : Type} (f : σ → String → α → β × σ) (state : σ) (e : Element α) :
    Element β × σ :=
  let (label, state) := f state e.name e.label
  let (content, state) := e.content.relabel f state
  (⟨e.name, label, content⟩, state)

def map (f : α → β) (e : Element α) : Element β := ⟨e.name, f e.label, e.content.map f⟩

end Element

namespace Content

variable {α : Type}

theorem length_preorder (content : Content α) :
    content.preorder.length = content.elementCount := by
  induction content with
  | done => rfl
  | text _ _ ih => exact ih
  | aside _ _ ih => exact ih
  | element _ _ _ _ ihInner ihRest =>
    simp only [preorder, elementCount, List.length_cons, List.length_append, ihInner, ihRest]
    omega

theorem totalCount_children (content : Content α) :
    Element.totalCount content.children = content.elementCount := by
  induction content with
  | done => rfl
  | text _ _ ih => exact ih
  | aside _ _ ih => exact ih
  | element _ _ _ _ _ ihRest =>
    simp only [children, elementCount, Element.totalCount, ihRest, Element.elementCount]

end Content

theorem Element.totalCount_append {α : Type} (left right : List (Element α)) :
    totalCount (left ++ right) = totalCount left + totalCount right := by
  induction left with
  | nil => simp [totalCount]
  | cons e rest ih =>
    simp only [List.cons_append, totalCount, ih]
    omega

theorem Element.totalCount_children_lt {α : Type} (e : Element α) :
    totalCount e.children < e.elementCount := by
  have := e.content.totalCount_children
  simp only [children, elementCount]
  omega

end DtdConformance.Document
