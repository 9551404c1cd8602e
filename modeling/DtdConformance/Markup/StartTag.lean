import DtdConformance.Log
import DtdConformance.Markup.Block
import DtdConformance.Text.LineIndex
import DtdConformance.Text.Word

/-! # Start tags in source order

A start tag stands where a less-than sign is followed by a name and a greater-than sign comes
later. The tag ends at the first greater-than sign, so no other tag begins before it. End tags,
declarations and literal blocks hold no start tag.
-/
namespace DtdConformance.Markup
set_option autoImplicit false

open Text

structure TagOccurrence where
  name : String
  offset : Nat
  line : Nat
  deriving Repr, DecidableEq

def afterClose? : List Char → Option (List Char)
  | [] => none
  | c :: cs => if c = '>' then some cs else afterClose? cs

/-- The name of the start tag whose less-than sign has just been read, and what follows the
tag. -/
def tagAfterOpen? (cs : List Char) : Option (List Char × List Char) :=
  let name := cs.takeWhile isNameChar
  if name.isEmpty then none
  else (afterClose? (cs.dropWhile isNameChar)).map fun rest => (name, rest)

theorem length_lt_of_afterClose? {cs rest : List Char} (h : afterClose? cs = some rest) :
    rest.length < cs.length := by
  induction cs with
  | nil => simp [afterClose?] at h
  | cons c cs ih =>
    simp only [afterClose?] at h
    split at h
    · simp only [Option.some.injEq] at h
      simp [h]
    · have := ih h
      simp only [List.length_cons]
      omega

theorem length_lt_of_tagAfterOpen? {cs name rest : List Char}
    (h : tagAfterOpen? cs = some (name, rest)) : rest.length < cs.length := by
  unfold tagAfterOpen? at h
  simp only at h
  split at h
  · simp at h
  · simp only [Option.map_eq_some_iff, Prod.mk.injEq] at h
    obtain ⟨rest', hClose, _, hRest⟩ := h
    subst hRest
    have hLess := length_lt_of_afterClose? hClose
    have hDrop := (List.dropWhile_sublist (p := isNameChar) (l := cs)).length_le
    omega

/-- The names and offsets of the start tags of a masked text that stands at the given offset. -/
def tagsFrom (offset : Nat) (cs : List Char) : List (List Char × Nat) :=
  match cs with
  | [] => []
  | c :: cs =>
    if c = '<' then
      match hTag : tagAfterOpen? cs with
      | some (name, rest) =>
        (name, offset) :: tagsFrom (offset + 1 + (cs.length - rest.length)) rest
      | none => tagsFrom (offset + 1) cs
    else tagsFrom (offset + 1) cs
termination_by cs.length
decreasing_by
  · have := length_lt_of_tagAfterOpen? hTag
    simp only [List.length_cons]
    omega
  · simp
  · simp

def startTags (cs : List Char) (index : LineIndex) : List TagOccurrence :=
  (tagsFrom 0 (maskLiteralBlocks cs)).map fun (name, offset) =>
    ⟨String.ofList name, offset, index.lineAt offset⟩

def report (tags : List TagOccurrence) (index : LineIndex) : Log.Entry :=
  ⟨.tagScanner, .debug, s!"Scanned {tags.length} start tags over {index.lineCount} lines"⟩

end DtdConformance.Markup
