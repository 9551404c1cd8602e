import DtdConformance.Text.LineEnding
import DtdConformance.Text.Search

/-! # Literal blocks

Comments, character data sections and processing instructions hold text that is not markup. A
text is cut from left to right: where a block opens and its terminator follows, the block reaches
to the first such terminator, and an opener without a terminator is ordinary text. Masking blanks
the blocks out and keeps every other character at its offset and on its line.
-/
namespace DtdConformance.Markup
set_option autoImplicit false

open Text

inductive BlockKind where
  | comment
  | characterData
  | instruction
  deriving Repr, DecidableEq

namespace BlockKind

def opener : BlockKind → List Char
  | comment => ['<', '!', '-', '-']
  | characterData => ['<', '!', '[', 'C', 'D', 'A', 'T', 'A', '[']
  | instruction => ['<', '?']

def terminator : BlockKind → List Char
  | comment => ['-', '-', '>']
  | characterData => [']', ']', '>']
  | instruction => ['?', '>']

def all : List BlockKind := [comment, characterData, instruction]

end BlockKind

def blockOf? (kind : BlockKind) (cs : List Char) : Option (List Char × List Char) :=
  match after? kind.opener cs with
  | none => none
  | some inside =>
    (splitAt? kind.terminator inside).map fun (body, rest) =>
      (kind.opener ++ body ++ kind.terminator, rest)

theorem eq_append_of_blockOf? {kind : BlockKind} {cs block rest : List Char}
    (h : blockOf? kind cs = some (block, rest)) : cs = block ++ rest := by
  unfold blockOf? at h
  split at h
  · simp at h
  · next inside hAfter =>
    simp only [Option.map_eq_some_iff, Prod.mk.injEq, Prod.exists] at h
    obtain ⟨body, rest', hSplit, hBlock, hRest⟩ := h
    subst hBlock hRest
    rw [(after?_eq_some_iff ..).mp hAfter, eq_append_of_splitAt? hSplit]
    simp

theorem ne_nil_of_blockOf? {kind : BlockKind} {cs block rest : List Char}
    (h : blockOf? kind cs = some (block, rest)) : block ≠ [] := by
  unfold blockOf? at h
  split at h
  · simp at h
  · simp only [Option.map_eq_some_iff, Prod.mk.injEq, Prod.exists] at h
    obtain ⟨body, rest', _, hBlock, _⟩ := h
    subst hBlock
    cases kind <;> simp [BlockKind.opener]

/-- The block of one of the given kinds at the front of a text. No two openers agree, so at most
one kind fits. -/
def blockAt? (kinds : List BlockKind) (cs : List Char) : Option (List Char × List Char) :=
  kinds.findSome? (fun kind => blockOf? kind cs)

theorem exists_blockOf?_of_blockAt? {kinds : List BlockKind} {cs : List Char}
    {found : List Char × List Char} (h : blockAt? kinds cs = some found) :
    ∃ kind ∈ kinds, blockOf? kind cs = some found := by
  obtain ⟨before, kind, rest, hKinds, hBlock, _⟩ := List.findSome?_eq_some_iff.mp h
  exact ⟨kind, by simp [hKinds], hBlock⟩

theorem length_lt_of_blockAt? {kinds : List BlockKind} {cs block rest : List Char}
    (h : blockAt? kinds cs = some (block, rest)) : rest.length < cs.length := by
  obtain ⟨kind, _, hBlock⟩ := exists_blockOf?_of_blockAt? h
  have hPos := List.length_pos_iff.mpr (ne_nil_of_blockOf? hBlock)
  rw [eq_append_of_blockOf? hBlock, List.length_append]
  omega

/-- A text is a sequence of blocks and of single characters outside them. -/
inductive Piece where
  | plain (c : Char)
  | block (text : List Char)
  deriving Repr, DecidableEq

namespace Piece

def text : Piece → List Char
  | plain c => [c]
  | block text => text

def masked : Piece → List Char
  | plain c => [c]
  | block text => blankOut text

end Piece

def pieces (kinds : List BlockKind) (cs : List Char) : List Piece :=
  match _hBlock : blockAt? kinds cs with
  | some (block, rest) => .block block :: pieces kinds rest
  | none =>
    match cs with
    | [] => []
    | c :: rest => .plain c :: pieces kinds rest
termination_by cs.length
decreasing_by
  · exact length_lt_of_blockAt? _hBlock
  · simp

def mask (kinds : List BlockKind) (cs : List Char) : List Char :=
  (pieces kinds cs).flatMap Piece.masked

def maskComments (cs : List Char) : List Char := mask [.comment] cs

def maskLiteralBlocks (cs : List Char) : List Char := mask BlockKind.all cs

theorem flatMap_text_pieces (kinds : List BlockKind) (cs : List Char) :
    (pieces kinds cs).flatMap Piece.text = cs := by
  fun_induction pieces kinds cs with
  | case1 cs block rest hBlock ih =>
    obtain ⟨kind, _, hKind⟩ := exists_blockOf?_of_blockAt? hBlock
    simp [Piece.text, ih, eq_append_of_blockOf? hKind]
  | case2 => rfl
  | case3 hNone c rest ih => simp [Piece.text, ih]

end DtdConformance.Markup
