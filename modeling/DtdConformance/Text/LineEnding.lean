/-! # Line endings and byte order marks

A text may end its lines with a line feed, a carriage return, or both in that order. Positions are
only taken in a text whose lines all end with a line feed.
-/
namespace DtdConformance.Text
set_option autoImplicit false

def normalizeLineEndings : List Char → List Char
  | [] => []
  | '\r' :: '\n' :: cs => '\n' :: normalizeLineEndings cs
  | c :: cs => (if c = '\r' then '\n' else c) :: normalizeLineEndings cs

def byteOrderMark : Char := '\uFEFF'

def stripByteOrderMark : List Char → List Char
  | [] => []
  | c :: cs => if c = byteOrderMark then cs else c :: cs

/-- A stretch of blanks as long as the text, with its line feeds kept. -/
def blankOut (cs : List Char) : List Char := cs.map (fun c => if c = '\n' then '\n' else ' ')

theorem length_blankOut (cs : List Char) : (blankOut cs).length = cs.length := by
  simp [blankOut]

theorem not_mem_blankOut (cs : List Char) {c : Char} (hFeed : c ≠ '\n') (hSpace : c ≠ ' ') :
    c ∉ blankOut cs := by
  intro hMem
  obtain ⟨d, _, hEq⟩ := List.mem_map.mp hMem
  split at hEq
  · exact hFeed hEq.symm
  · exact hSpace hEq.symm

theorem not_mem_normalizeLineEndings (cs : List Char) : '\r' ∉ normalizeLineEndings cs := by
  fun_induction normalizeLineEndings cs with
  | case1 => simp
  | case2 cs ih => simpa using ih
  | case3 c cs _ ih =>
    by_cases hReturn : c = '\r'
    · simpa [hReturn] using ih
    · simpa [hReturn, Ne.symm hReturn] using ih

end DtdConformance.Text
