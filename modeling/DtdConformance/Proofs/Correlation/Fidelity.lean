import DtdConformance.Correlation
import DtdConformance.Proofs.Document.Label
import DtdConformance.Proofs.Markup.Source
import DtdConformance.Proofs.Text.LineIndex

/-! # Elements find their own start tags

The elements of a written document take the start tags of its text one by one. Every element gets
its own tag, so its line is counted up to the less-than sign of that tag.
-/
namespace DtdConformance.Correlation
set_option autoImplicit false

open Document Markup

def lineAfter (before : List Char) : Nat := 1 + before.count '\n'

/-- The start tag of an element that is labelled with the text before it. -/
def occurrence (e : Element (List Char)) : TagOccurrence where
  name := e.name
  offset := e.label.length
  line := lineAfter e.label

theorem startTags_eq_map_occurrence (document : Written) :
    startTags document.chars (.ofText document.chars) = document.tree.preorder.map occurrence := by
  have hScan := document.scanFrom_chars
  rw [scanFrom] at hScan
  rw [startTags, hScan, List.map_map]
  refine List.map_congr_left fun e hMem => ?_
  obtain ⟨rest, hRest⟩ := Written.opening_isPrefix_of_mem_tree hMem
  rw [List.append_assoc] at hRest
  have hLine := Text.LineIndex.lineAt_length e.label ('<' :: e.name.toList ++ rest)
  rw [hRest] at hLine
  simp only [Function.comp_apply, sighted, String.ofList_toList, hLine]
  rfl

/-! ## Taking tags -/

theorem place_cons (index : Nat) (e : Element (List Char)) (ahead : List TagOccurrence)
    (readerLine : Option Nat) :
    place ⟨index, occurrence e :: ahead⟩ e.name readerLine =
      (⟨readerLine, some ⟨index, occurrence e⟩⟩, ⟨index + 1, ahead⟩) := by
  simp only [place, seek?, occurrence, if_true]

/-- When the tags ahead begin with those of the elements of a content, the content takes exactly
these. -/
theorem relabel_place {content : Content (Option Nat)} {shape : Content (List Char)}
    (hShape : content.skeleton.map (fun _ => ()) = shape.map (fun _ => ())) (index : Nat)
    (tail : List TagOccurrence) :
    ∃ placed, content.relabel place ⟨index, shape.preorder.map occurrence ++ tail⟩ =
        (placed, ⟨index + shape.elementCount, tail⟩) ∧
      ∀ useReaderLines, placed.skeleton.map (Place.line useReaderLines) =
        shape.map (fun before => some (lineAfter before)) := by
  induction content generalizing shape index tail with
  | done =>
    cases shape with
    | done => exact ⟨.done, rfl, fun _ => rfl⟩
    | text | aside | element => cases hShape
  | text chars rest ih =>
    obtain ⟨placed, hPlaced, hLines⟩ := ih hShape index tail
    exact ⟨.text chars placed, by rw [Content.relabel, hPlaced], hLines⟩
  | aside kind rest ih =>
    obtain ⟨placed, hPlaced, hLines⟩ := ih hShape index tail
    exact ⟨.aside kind placed, by rw [Content.relabel, hPlaced], hLines⟩
  | element name label inner rest ihInner ihRest =>
    cases shape with
    | done | text | aside => cases hShape
    | element name' before inner' rest' =>
      injection hShape with hName _ hInner hRest
      subst hName
      obtain ⟨placedInner, hPlacedInner, hLinesInner⟩ :=
        ihInner hInner (index + 1) (rest'.preorder.map occurrence ++ tail)
      obtain ⟨placedRest, hPlacedRest, hLinesRest⟩ :=
        ihRest hRest (index + 1 + inner'.elementCount) tail
      refine ⟨.element name ⟨label, some ⟨index, occurrence ⟨name, before, inner'⟩⟩⟩ placedInner
        placedRest, ?_, fun useReaderLines => ?_⟩
      · have hPlace := place_cons index ⟨name, before, inner'⟩
          (inner'.preorder.map occurrence ++ (rest'.preorder.map occurrence ++ tail)) label
        simp only [Content.relabel, Content.preorder, List.map_cons, List.map_append,
          List.cons_append, List.append_assoc, hPlace, hPlacedInner, hPlacedRest,
          Content.elementCount]
        congr 2
        omega
      · simp only [Content.skeleton, Content.map, hLinesInner, hLinesRest, Place.line, occurrence]

theorem lines_of_isSighted {root : Element Place} (h : root.label.isSighted = true)
    (useReaderLines : Bool) : lines useReaderLines root = root.map (Place.line useReaderLines) := by
  have hPos : sightedCount root ≠ 0 := by
    rw [sightedCount, Element.preorder, List.countP_cons, if_pos h]
    exact Nat.succ_ne_zero _
  rw [lines, if_neg hPos]

theorem lines_correlate {root : Element (Option Nat)} {shape : Element (List Char)}
    (hShape : root.skeleton.map (fun _ => ()) = shape.map (fun _ => ())) (useReaderLines : Bool) :
    (lines useReaderLines (correlate (shape.preorder.map occurrence) root)).skeleton =
      shape.map (fun before => some (lineAfter before)) := by
  obtain ⟨name, label, content⟩ := root
  obtain ⟨name', before, content'⟩ := shape
  have hName : name = name' := congrArg Element.name hShape
  have hContent : content.skeleton.map (fun _ => ()) = content'.map (fun _ => ()) :=
    congrArg Element.content hShape
  subst hName
  obtain ⟨placed, hPlaced, hLines⟩ := relabel_place hContent 1 []
  have hPlace := place_cons 0 ⟨name, before, content'⟩
    (content'.preorder.map occurrence ++ []) label
  have hCorrelate : correlate (Element.preorder ⟨name, before, content'⟩ |>.map occurrence)
      ⟨name, label, content⟩ =
        ⟨name, ⟨label, some ⟨0, occurrence ⟨name, before, content'⟩⟩⟩, placed⟩ := by
    rw [← List.append_nil (List.map _ _)]
    simp only [correlate, Element.relabel, Element.preorder, List.map_cons, List.cons_append,
      hPlace, hPlaced]
  rw [hCorrelate, lines_of_isSighted rfl, Element.skeleton_map]
  simp only [Element.skeleton, Element.map, hLines, Place.line, occurrence]

/-- The scanner finds the start tags of a written document, one for every element in document
order, and every element of a tree with the elements of the document is on the line of its own
start tag. -/
theorem lines_startTags_of_written (document : Written) (root : Element (Option Nat))
    (hRoot : root.skeleton.map (fun _ => ()) = document.tree.map (fun _ => ()))
    (useReaderLines : Bool) :
    let tags := startTags document.chars (.ofText document.chars)
    tags = document.tree.preorder.map
        (fun e => ⟨e.name, e.label.length, 1 + e.label.count '\n'⟩) ∧
      (∀ e ∈ document.tree.preorder, e.label ++ '<' :: e.name.toList <+: document.chars) ∧
      (lines useReaderLines (correlate tags root)).skeleton =
        document.tree.map (fun before => some (1 + before.count '\n')) := by
  intro tags
  have hTags : tags = document.tree.preorder.map occurrence := startTags_eq_map_occurrence document
  refine ⟨hTags, fun e hMem => Written.opening_isPrefix_of_mem_tree hMem, ?_⟩
  rw [hTags]
  exact lines_correlate hRoot useReaderLines

/-- A comment, a character data section and an instruction of the memo hold what looks like tags,
and its root has a greater-than sign and a line feed among its attributes. -/
def memo : Written where
  prolog :=
    [.block ⟨.instruction, ['x', 'm', 'l'], by decide⟩, .space ⟨['\n'], by decide⟩,
      .doctype ⟨[' ', 'm'], by decide⟩, .space ⟨['\n'], by decide⟩,
      .block (.ofComment ('<' :: 't' :: 'o' :: '>' :: '\n' :: BlockKind.characterData.opener)
        (by decide)), .space ⟨['\n'], by decide⟩]
  root := ⟨['m'], [' ', 'k', '=', '"', '>', '"', '\n'], by decide, by decide, by decide⟩
  content? := some
    (.text ⟨['\n'], by decide⟩ <| .empty ⟨['t', 'o'], [], by decide, by decide, by decide⟩ <|
      .block ⟨.characterData, ['<', 't', 'o', '>', '-', '-', '>', '\n'], by decide⟩ <|
      .element ⟨['t', 'o'], [' '], by decide, by decide, by decide⟩
        (.text ⟨['?', '>'], by decide⟩ .done) ⟨[' '], by decide⟩ <|
      .block ⟨.instruction, ['x', ' ', '<', 't', 'o', '>'], by decide⟩ .done, ⟨[], by decide⟩)
  epilog := [.space ⟨['\n'], by decide⟩, .block (.ofComment [] (by decide))]

/-- The tree of the memo as a reader gives it. -/
def memoTree : Element (Option Nat) :=
  ⟨"m", some 6, .text ['\n'] <| .element "to" (some 7) .done <|
    .text ['<', 't', 'o', '>', '-', '-', '>', '\n'] <|
    .element "to" (some 8) (.text ['?', '>'] .done) <| .aside .instruction .done⟩

theorem lines_startTags_of_memo :
    memoTree.skeleton.map (fun _ => ()) = memo.tree.map (fun _ => ()) ∧
      startTags memo.chars (.ofText memo.chars) =
        [⟨"m", 43, 5⟩, ⟨"to", 54, 7⟩, ⟨"to", 79, 8⟩] ∧
      (lines false (correlate (startTags memo.chars (.ofText memo.chars)) memoTree)).skeleton =
        ⟨"m", some 5, .element "to" (some 7) .done <| .element "to" (some 8) .done .done⟩ := by
  have hTree : memoTree.skeleton.map (fun _ => ()) = memo.tree.map (fun _ => ()) := rfl
  obtain ⟨hTags, _, hLines⟩ := lines_startTags_of_written memo memoTree hTree false
  exact ⟨hTree, hTags.trans (by decide), hLines.trans (by decide)⟩

end DtdConformance.Correlation
