import DtdConformance.Document.Tree
import DtdConformance.Log
import DtdConformance.Markup.StartTag
import DtdConformance.Text.Quoted

/-! # Elements and their start tags

Where the elements of a tree stand in a text. The elements take the start tags of the text in
document order: each takes the first tag of its name that comes after the last tag taken. An
element that finds none takes none, and the next element searches from the same place.
-/
namespace DtdConformance.Correlation
set_option autoImplicit false

open Document Markup

/-- A start tag and its index among all start tags. -/
structure Sighting where
  index : Nat
  tag : TagOccurrence
  deriving Repr, DecidableEq

/-- The start tags that have not been passed, and the index of the first of them. -/
structure Cursor where
  index : Nat
  ahead : List TagOccurrence
  deriving Repr, DecidableEq

/-- The first tag of a name at or after an index, and the cursor that stands after it. -/
def seek? (name : String) (index : Nat) : List TagOccurrence → Option (Sighting × Cursor)
  | [] => none
  | tag :: ahead =>
    if tag.name = name then some (⟨index, tag⟩, ⟨index + 1, ahead⟩)
    else seek? name (index + 1) ahead

theorem name_eq_of_seek? {name : String} {index : Nat} {tags : List TagOccurrence}
    {found : Sighting} {cursor : Cursor} (h : seek? name index tags = some (found, cursor)) :
    found.tag.name = name := by
  induction tags generalizing index with
  | nil => simp [seek?] at h
  | cons tag ahead ih =>
    simp only [seek?] at h
    split at h
    · next hName =>
      simp only [Option.some.injEq, Prod.mk.injEq] at h
      rw [← h.1]
      exact hName
    · exact ih h

theorem seek?_eq_none_iff {name : String} {index : Nat} {tags : List TagOccurrence} :
    seek? name index tags = none ↔ ∀ tag ∈ tags, tag.name ≠ name := by
  induction tags generalizing index with
  | nil => simp [seek?]
  | cons tag ahead ih => by_cases hName : tag.name = name <;> simp [seek?, hName, ih]

/-- What is known about the place of an element: the line on which its reader saw it, and the start
tag that it has taken. -/
structure Place where
  readerLine : Option Nat
  sighting? : Option Sighting
  deriving Repr, DecidableEq

namespace Place

def isSighted (place : Place) : Bool := place.sighting?.isSome

def line (useReaderLines : Bool) (place : Place) : Option Nat :=
  match place.sighting? with
  | some sighting => some sighting.tag.line
  | none => if useReaderLines then place.readerLine else none

end Place

def place (cursor : Cursor) (name : String) (readerLine : Option Nat) : Place × Cursor :=
  match seek? name cursor.index cursor.ahead with
  | some (sighting, cursor) => (⟨readerLine, some sighting⟩, cursor)
  | none => (⟨readerLine, none⟩, cursor)

def correlate (tags : List TagOccurrence) (root : Element (Option Nat)) : Element Place :=
  (root.relabel place ⟨0, tags⟩).1

def unsighted (root : Element Place) : List (Element Place) :=
  root.preorder.filter (fun e => !e.label.isSighted)

def sightedCount (root : Element Place) : Nat :=
  root.preorder.countP (fun e => e.label.isSighted)

def shownNames : Nat := 10

def report (root : Element Place) : List Log.Entry :=
  let names := (unsighted root).map Element.name
  if names.isEmpty then []
  else [⟨.lineCorrelator, .debug, s!"{names.length} element(s) could not be correlated to a " ++
    s!"start tag: {Text.quotedList (names.take shownNames)}"⟩]

/-- The tree with the line of each element. When no element has taken a start tag, the lines of the
reader are of no use either and every line is unknown. -/
def lines (useReaderLines : Bool) (root : Element Place) : Element (Option Nat) :=
  if sightedCount root = 0 then root.map (fun _ => none)
  else root.map (Place.line useReaderLines)

end DtdConformance.Correlation
