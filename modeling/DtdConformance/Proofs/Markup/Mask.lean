import DtdConformance.Proofs.Markup.Scan
import DtdConformance.Proofs.Text.Leftmost

/-! # What is masked

A block reaches from its opener to the first terminator behind it. Masking blanks out the blocks
that a scan from left to right finds and leaves every other character as it is. A mark of a masked
text has stood there before, so no block is left and masking again changes nothing.
-/
namespace DtdConformance.Markup
set_option autoImplicit false

open Text

/-! ## Blocks between offsets -/

/-- A block of the kind stands between the offsets: its opener at the first, and at the second the
end of the first terminator behind the opener. -/
def BlockKind.Spans (kind : BlockKind) (cs : List Char) (start stop : Nat) : Prop :=
  kind.opener <+: cs.drop start ∧
    ∃ close, FirstFrom kind.terminator cs (start + kind.opener.length) close ∧
      stop = close + kind.terminator.length

def IsBlock (kinds : List BlockKind) (cs : List Char) (start stop : Nat) : Prop :=
  ∃ kind ∈ kinds, kind.Spans cs start stop

/-- The offset stands inside a block that the scan from left to right finds. -/
def IsMasked (kinds : List BlockKind) (cs : List Char) (offset : Nat) : Prop :=
  IsCovered (IsBlock kinds cs) offset

theorem IsBlock.unique {kinds : List BlockKind} {cs : List Char} {start stop other : Nat}
    (h : IsBlock kinds cs start stop) (hOther : IsBlock kinds cs start other) : other = stop := by
  obtain ⟨kind, _, hOpens, close, hClose, rfl⟩ := h
  obtain ⟨kind', _, hOpens', close', hClose', rfl⟩ := hOther
  obtain rfl := opener_unique hOpens hOpens'
  rw [hClose.unique hClose']

theorem IsBlock.lt {kinds : List BlockKind} {cs : List Char} {start stop : Nat}
    (h : IsBlock kinds cs start stop) : start < stop := by
  obtain ⟨kind, _, _, close, hClose, rfl⟩ := h
  have hOpener := List.length_pos_iff.mpr kind.opener_ne_nil
  have hBehind := hClose.behind
  omega

theorem IsBlock.getElem?_start {kinds : List BlockKind} {cs : List Char} {start stop : Nat}
    (h : IsBlock kinds cs start stop) : cs[start]? = some '<' := by
  obtain ⟨kind, _, ⟨rest, hRest⟩, _⟩ := h
  have hHead : (cs.drop start)[0]? = some '<' := by
    rw [← hRest]
    cases kind <;> rfl
  rwa [List.getElem?_drop] at hHead

theorem exists_isBlock {kinds : List BlockKind} {kind : BlockKind} (hKind : kind ∈ kinds)
    {cs : List Char} {start close : Nat} (hOpens : kind.opener <+: cs.drop start)
    (hBehind : start + kind.opener.length ≤ close) (hCloses : kind.terminator <+: cs.drop close) :
    ∃ stop, IsBlock kinds cs start stop := by
  obtain ⟨first, hFirst⟩ := exists_firstFrom hBehind hCloses
  exact ⟨_, kind, hKind, hOpens, first, hFirst, rfl⟩

/-- The block at the front of a text, seen from before. -/
theorem isBlock_of_blockAt? {kinds : List BlockKind} {cs block rest : List Char}
    (h : blockAt? kinds cs = some (block, rest)) (before : List Char) :
    IsBlock kinds (before ++ cs) before.length (before.length + block.length) := by
  obtain ⟨kind, hKind, hBlock⟩ := exists_blockOf?_of_blockAt? h
  unfold blockOf? at hBlock
  split at hBlock
  · cases hBlock
  · next inside hAfter =>
    obtain ⟨⟨body, rest'⟩, hSplit, hEq⟩ := Option.map_eq_some_iff.mp hBlock
    cases hEq
    obtain rfl := (after?_eq_some_iff ..).mp hAfter
    refine ⟨kind, hKind, ?_, before.length + kind.opener.length + body.length, ?_, ?_⟩
    · rw [List.drop_left]
      exact List.prefix_append _ _
    · rw [← List.append_assoc, ← List.length_append]
      exact (firstFrom_append_iff _ (before ++ kind.opener) inside 0 body.length).mpr
        (firstFrom_of_splitAt? hSplit)
    · simp only [List.length_append, Nat.add_assoc]

theorem not_isBlock_of_blockAt? {kinds : List BlockKind} {cs : List Char}
    (h : blockAt? kinds cs = none) (before : List Char) (stop : Nat) :
    ¬ IsBlock kinds (before ++ cs) before.length stop := by
  rintro ⟨kind, hKind, hOpens, close, hClose, _⟩
  have hNone := List.findSome?_eq_none_iff.mp h kind hKind
  rw [List.drop_left] at hOpens
  obtain ⟨inside, rfl⟩ := hOpens
  rw [blockOf?, (after?_eq_some_iff kind.opener _ inside).mpr rfl] at hNone
  obtain ⟨place, rfl⟩ := Nat.exists_eq_add_of_le hClose.behind
  have hStands := hClose.stands
  rw [← List.append_assoc, ← List.length_append, List.drop_length_add_append] at hStands
  exact not_isPrefix_of_splitAt? (Option.map_eq_none_iff.mp hNone) place hStands

/-! ## The masked text -/

def blanked (c : Char) : Char := if c = '\n' then '\n' else ' '

theorem blankOut_eq_map (cs : List Char) : blankOut cs = cs.map blanked := rfl

/-- Masking goes on behind a block and behind a character that opens none. Both offsets are clear,
so the rest is masked as in the whole text. -/
theorem getElem?_mask_append (kinds : List BlockKind) (before cs : List Char)
    (hClear : IsClear (IsBlock kinds (before ++ cs)) before.length) (i : Nat) :
    (IsMasked kinds (before ++ cs) (before.length + i) →
        (mask kinds cs)[i]? = cs[i]?.map blanked) ∧
      (¬ IsMasked kinds (before ++ cs) (before.length + i) → (mask kinds cs)[i]? = cs[i]?) := by
  induction cs using pieces.induct kinds generalizing before i with
  | case1 cs block rest hBlock ih =>
    have hHere := isBlock_of_blockAt? hBlock before
    have hBehind := hClear.behind hHere (fun other hOther => hHere.unique hOther) hHere.lt
    rw [mask_of_blockAt? hBlock, blankOut_eq_map]
    obtain ⟨_, _, hKind⟩ := exists_blockOf?_of_blockAt? hBlock
    obtain rfl := eq_append_of_blockOf? hKind
    rcases Nat.lt_or_ge i block.length with hInside | hOutside
    · have hCovered : IsMasked kinds (before ++ (block ++ rest)) (before.length + i) :=
        ⟨_, _, leftmost_iff.mpr ⟨hHere, hClear⟩, by omega, by omega⟩
      refine ⟨fun _ => ?_, fun hNot => absurd hCovered hNot⟩
      rw [List.getElem?_append_left (by rwa [List.length_map]), List.getElem?_map,
        List.getElem?_append_left hInside]
    · obtain ⟨j, rfl⟩ := Nat.exists_eq_add_of_le hOutside
      have hRest := ih (before ++ block) (by rwa [List.length_append, List.append_assoc]) j
      rw [List.length_append, List.append_assoc, Nat.add_assoc] at hRest
      rwa [List.getElem?_append_right (by simp), List.length_map, Nat.add_sub_cancel_left,
        List.getElem?_append_right (by simp), Nat.add_sub_cancel_left]
  | case2 => simp [mask_nil]
  | case3 c rest hNone ih =>
    have hNot := not_isBlock_of_blockAt? hNone before
    rw [mask_cons_of_blockAt? hNone]
    cases i with
    | zero => exact ⟨fun hCovered => absurd hCovered (hClear.not_isCovered hNot), fun _ => rfl⟩
    | succ i =>
      have hRest := ih (before ++ [c]) (by
        rw [List.append_assoc, List.length_append]
        exact hClear.succ hNot) i
      rw [List.append_assoc, List.length_append, Nat.add_assoc] at hRest
      rw [List.getElem?_cons_succ, List.getElem?_cons_succ, Nat.add_comm i]
      exact hRest

section

variable {kinds : List BlockKind} {cs : List Char} {i : Nat}

theorem getElem?_mask_of_isMasked (h : IsMasked kinds cs i) :
    (mask kinds cs)[i]? = cs[i]?.map blanked := by
  have hMask := (getElem?_mask_append kinds [] cs isClear_zero i).1
  rw [List.length_nil, Nat.zero_add] at hMask
  exact hMask h

theorem getElem?_mask_of_not_isMasked (h : ¬ IsMasked kinds cs i) :
    (mask kinds cs)[i]? = cs[i]? := by
  have hMask := (getElem?_mask_append kinds [] cs isClear_zero i).2
  rw [List.length_nil, Nat.zero_add] at hMask
  exact hMask h

theorem length_mask (kinds : List BlockKind) (cs : List Char) :
    (mask kinds cs).length = cs.length := by
  have hPiece (piece : Piece) : piece.masked.length = piece.text.length := by
    cases piece with
    | plain c => rfl
    | block text => exact length_blankOut text
  calc
    (mask kinds cs).length = ((pieces kinds cs).flatMap Piece.text).length := by
      simp only [mask, List.length_flatMap, hPiece]
    _ = cs.length := by rw [flatMap_text_pieces]

/-- Masking puts in spaces and line feeds only. Every other character has stood there before. -/
theorem getElem?_mask_eq_some_iff {c : Char} (hFeed : c ≠ '\n') (hSpace : c ≠ ' ') :
    (mask kinds cs)[i]? = some c ↔ cs[i]? = some c ∧ ¬ IsMasked kinds cs i := by
  by_cases hMasked : IsMasked kinds cs i
  · have hNot : cs[i]?.map blanked ≠ some c := by
      intro hSome
      obtain ⟨d, _, hEq⟩ := Option.map_eq_some_iff.mp hSome
      unfold blanked at hEq
      split at hEq
      · exact hFeed hEq.symm
      · exact hSpace hEq.symm
    rw [getElem?_mask_of_isMasked hMasked]
    exact ⟨fun hSome => absurd hSome hNot, fun hBoth => absurd hMasked hBoth.2⟩
  · rw [getElem?_mask_of_not_isMasked hMasked]
    exact ⟨fun hSome => ⟨hSome, hMasked⟩, And.left⟩

theorem getElem?_mask_eq_feed_iff : (mask kinds cs)[i]? = some '\n' ↔ cs[i]? = some '\n' := by
  by_cases hMasked : IsMasked kinds cs i
  · have hChar (c : Char) : blanked c = '\n' ↔ c = '\n' := by
      by_cases hFeed : c = '\n' <;> simp [blanked, hFeed]
    rw [getElem?_mask_of_isMasked hMasked, Option.map_eq_some_iff]
    simp [hChar]
  · rw [getElem?_mask_of_not_isMasked hMasked]

theorem isPrefix_drop_of_mask {mark : List Char} (hMark : ∀ c ∈ mark, c ≠ '\n' ∧ c ≠ ' ')
    (h : mark <+: (mask kinds cs).drop i) : mark <+: cs.drop i := by
  rw [List.prefix_iff_getElem?] at h ⊢
  intro j hj
  obtain ⟨hFeed, hSpace⟩ := hMark _ (List.getElem_mem hj)
  have hMask := h j hj
  rw [List.getElem?_drop] at hMask ⊢
  exact ((getElem?_mask_eq_some_iff hFeed hSpace).mp hMask).1

end

theorem BlockKind.visible (kind : BlockKind) :
    (∀ c ∈ kind.opener, c ≠ '\n' ∧ c ≠ ' ') ∧ ∀ c ∈ kind.terminator, c ≠ '\n' ∧ c ≠ ' ' := by
  cases kind <;> simp [opener, terminator]

/-- An opener that is left has been left because no terminator follows, and none has come since. -/
theorem not_isBlock_mask (kinds : List BlockKind) (cs : List Char) (start stop : Nat) :
    ¬ IsBlock kinds (mask kinds cs) start stop := by
  intro hBlock
  obtain ⟨_, hClear⟩ := (getElem?_mask_eq_some_iff (by decide) (by decide)).mp
    hBlock.getElem?_start
  obtain ⟨kind, hKind, hOpens, close, hClose, _⟩ := hBlock
  obtain ⟨hOpener, hTerminator⟩ := kind.visible
  obtain ⟨reach, hFound⟩ := exists_isBlock hKind (isPrefix_drop_of_mask hOpener hOpens)
    hClose.behind (isPrefix_drop_of_mask hTerminator hClose.stands)
  exact hClear ⟨start, reach, leftmost_iff.mpr ⟨hFound, isClear_of_not_isCovered hClear⟩,
    Nat.le_refl start, hFound.lt⟩

theorem mask_eq_self {kinds : List BlockKind} {cs : List Char}
    (h : ∀ start stop, ¬ IsBlock kinds cs start stop) : mask kinds cs = cs := by
  apply List.ext_getElem?
  intro i
  apply getElem?_mask_of_not_isMasked
  rintro ⟨start, stop, hLeftmost, _⟩
  exact h start stop (leftmost_iff.mp hLeftmost).1

/-- The second text is the first with its blocks masked: what lies in a block has become blank, all
else has stayed, lines end where they did, and no block is left. -/
structure Masks (kinds : List BlockKind) (cs result : List Char) : Prop where
  length_eq : result.length = cs.length
  feed_iff : ∀ i : Nat, result[i]? = some '\n' ↔ cs[i]? = some '\n'
  unchanged_or_space : ∀ (i : Nat) (c : Char), result[i]? = some c → cs[i]? = some c ∨ c = ' '
  inside : ∀ i : Nat, IsMasked kinds cs i → result[i]? = cs[i]?.map blanked
  outside : ∀ i : Nat, ¬ IsMasked kinds cs i → result[i]? = cs[i]?
  no_block : ∀ kind ∈ kinds, ∀ start stop, ¬ kind.Spans result start stop

theorem masks_mask (kinds : List BlockKind) (cs : List Char) : Masks kinds cs (mask kinds cs) where
  length_eq := length_mask kinds cs
  feed_iff _ := getElem?_mask_eq_feed_iff
  unchanged_or_space i c hSome := by
    by_cases hSpace : c = ' '
    · exact .inr hSpace
    · left
      by_cases hFeed : c = '\n'
      · subst hFeed
        exact getElem?_mask_eq_feed_iff.mp hSome
      · exact ((getElem?_mask_eq_some_iff hFeed hSpace).mp hSome).1
  inside _ hMasked := getElem?_mask_of_isMasked hMasked
  outside _ hMasked := getElem?_mask_of_not_isMasked hMasked
  no_block kind hKind start stop hSpans :=
    not_isBlock_mask kinds cs start stop ⟨kind, hKind, hSpans⟩

/-- The blocks are those that a scan from left to right finds. -/
theorem leftmost_isBlock_iff (kinds : List BlockKind) (cs : List Char) (start stop : Nat) :
    Leftmost (IsBlock kinds cs) start stop ↔ IsBlock kinds cs start stop ∧
      ∀ earlier reach, Leftmost (IsBlock kinds cs) earlier reach → earlier < start →
        reach ≤ start := by
  rw [leftmost_iff]
  exact and_congr_right fun _ => ⟨fun h earlier reach hFound hLess => h earlier hLess reach hFound,
    fun h earlier hLess reach hFound => h earlier reach hFound hLess⟩

/-- Comments, or all literal blocks, are masked exactly where a scan from left to right finds them. What
is masked holds no block any more, so masking it again changes nothing. -/
theorem masks_found_blocks (cs : List Char) :
    Masks [.comment] cs (maskComments cs) ∧
      Masks BlockKind.all cs (maskLiteralBlocks cs) ∧
      (∀ kinds start stop, Leftmost (IsBlock kinds cs) start stop ↔ IsBlock kinds cs start stop ∧
        ∀ earlier reach, Leftmost (IsBlock kinds cs) earlier reach → earlier < start →
          reach ≤ start) ∧
      maskComments (maskComments cs) = maskComments cs ∧
      maskLiteralBlocks (maskLiteralBlocks cs) = maskLiteralBlocks cs ∧
      maskComments (maskLiteralBlocks cs) = maskLiteralBlocks cs := by
  refine ⟨masks_mask _ cs, masks_mask _ cs, fun kinds => leftmost_isBlock_iff kinds cs,
    mask_eq_self (not_isBlock_mask _ cs), mask_eq_self (not_isBlock_mask _ cs),
    mask_eq_self fun start stop hBlock => ?_⟩
  obtain ⟨kind, _, hSpans⟩ := hBlock
  exact not_isBlock_mask BlockKind.all cs start stop ⟨kind, mem_all kind, hSpans⟩

end DtdConformance.Markup
