import DtdConformance.Markup.StartTag
import DtdConformance.Proofs.Text.LineIndex

/-! # Start tags in the order of their lines

The scan goes forward only. Each start tag begins behind the last, so that their lines never go
back and are lines of the text.
-/
namespace DtdConformance.Markup
set_option autoImplicit false

open Text

theorem le_of_mem_tagsFrom {offset : Nat} {cs : List Char} {tag : List Char × Nat}
    (h : tag ∈ tagsFrom offset cs) : offset ≤ tag.2 := by
  fun_induction tagsFrom offset cs with
  | case1 => cases h
  | case2 offset cs name rest _ ih =>
    rcases List.mem_cons.mp h with rfl | hRest
    · exact Nat.le_refl offset
    · have := ih hRest
      omega
  | case3 offset cs _ ih | case4 offset c cs _ ih =>
    have := ih h
    omega

theorem pairwise_tagsFrom (offset : Nat) (cs : List Char) :
    (tagsFrom offset cs).Pairwise fun tag later => tag.2 < later.2 := by
  fun_induction tagsFrom offset cs with
  | case1 => exact List.Pairwise.nil
  | case2 offset cs name rest _ ih =>
    refine List.Pairwise.cons (fun later hMem => ?_) ih
    have := le_of_mem_tagsFrom hMem
    dsimp only
    omega
  | case3 _ _ _ ih | case4 _ _ _ _ ih => exact ih

theorem pairwise_line_startTags (cs : List Char) :
    ((startTags cs (.ofText cs)).map TagOccurrence.line).Pairwise (· ≤ ·) := by
  rw [startTags, List.map_map, List.pairwise_map]
  apply (pairwise_tagsFrom 0 (maskLiteralBlocks cs)).imp
  intro tag later hLess
  exact LineIndex.lineAt_mono cs (Nat.le_of_lt hLess)

theorem line_bounds_of_mem_startTags {cs : List Char} {tag : TagOccurrence}
    (h : tag ∈ startTags cs (.ofText cs)) : 1 ≤ tag.line ∧ tag.line ≤ cs.count '\n' + 1 := by
  obtain ⟨⟨name, offset⟩, _, rfl⟩ := List.mem_map.mp h
  exact LineIndex.lineAt_bounds cs offset

end DtdConformance.Markup
