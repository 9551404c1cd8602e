import DtdConformance.Proofs.Markup.Mask
import DtdConformance.Proofs.Markup.Order

/-! # Which start tags are found

A start tag is a less-than sign outside every block with a name right behind it and a greater-than
sign somewhere later. The scan finds all of them but those that stand inside one that it has found.
Nothing is asked of the text: its tags and blocks need not be closed.
-/
namespace DtdConformance.Markup
set_option autoImplicit false

open Text

/-! ## Tags between offsets -/

/-- The longest run of name characters right behind the offset. -/
def nameBehind (cs : List Char) (offset : Nat) : List Char :=
  (cs.drop (offset + 1)).takeWhile isNameChar

/-- A start tag stands between the offsets: a less-than sign with a name behind it at the first, and
the first greater-than sign right before the second. -/
def IsTag (cs : List Char) (start stop : Nat) : Prop :=
  cs[start]? = some '<' ∧ nameBehind cs start ≠ [] ∧
    ∃ close, FirstFrom ['>'] cs (start + 1) close ∧ stop = close + 1

theorem IsTag.unique {cs : List Char} {start stop other : Nat} (h : IsTag cs start stop)
    (hOther : IsTag cs start other) : other = stop := by
  obtain ⟨_, _, close, hClose, rfl⟩ := h
  obtain ⟨_, _, close', hClose', rfl⟩ := hOther
  rw [hClose.unique hClose']

theorem IsTag.lt {cs : List Char} {start stop : Nat} (h : IsTag cs start stop) : start < stop := by
  obtain ⟨_, _, close, hClose, rfl⟩ := h
  have := hClose.behind
  omega

theorem exists_isTag_iff {cs : List Char} {start : Nat} :
    (∃ stop, IsTag cs start stop) ↔
      cs[start]? = some '<' ∧ nameBehind cs start ≠ [] ∧
        ∃ close, start < close ∧ cs[close]? = some '>' := by
  constructor
  · rintro ⟨_, hOpens, hName, close, hClose, rfl⟩
    exact ⟨hOpens, hName, close, hClose.behind,
      (singleton_isPrefix_drop_iff _ _ _).mp hClose.stands⟩
  · rintro ⟨hOpens, hName, close, hBehind, hClose⟩
    obtain ⟨first, hFirst⟩ := exists_firstFrom hBehind
      ((singleton_isPrefix_drop_iff _ _ _).mpr hClose)
    exact ⟨_, hOpens, hName, first, hFirst, rfl⟩

/-! ## The scan -/

theorem afterClose?_eq_map_splitAt? (cs : List Char) :
    afterClose? cs = (splitAt? ['>'] cs).map Prod.snd := by
  induction cs with
  | nil => rfl
  | cons c cs ih =>
    rw [afterClose?]
    split
    · next hClose =>
      subst hClose
      rfl
    · next hOther =>
      have hNot : ¬ ['>'] <+: c :: cs := by
        rw [List.cons_prefix_cons]
        exact fun hBoth => hOther hBoth.1.symm
      rw [splitAt?_cons hNot, ih, Option.map_map]
      rfl

theorem afterClose?_append_of_not_mem {text : List Char} (h : '>' ∉ text) (cs : List Char) :
    afterClose? (text ++ cs) = afterClose? cs := by
  induction text with
  | nil => rfl
  | cons c text ih =>
    rw [List.mem_cons, not_or] at h
    rw [List.cons_append, afterClose?, if_neg (Ne.symm h.1), ih h.2]

theorem tagAfterOpen?_eq (cs : List Char) :
    tagAfterOpen? cs =
      if cs.takeWhile isNameChar = [] then none
      else (splitAt? ['>'] cs).map fun (_, rest) => (cs.takeWhile isNameChar, rest) := by
  have hName : '>' ∉ cs.takeWhile isNameChar :=
    not_mem_of_nameChar (fun c hMem => List.mem_takeWhile_imp hMem) (by decide)
  have hClose := afterClose?_append_of_not_mem hName (cs.dropWhile isNameChar)
  rw [List.takeWhile_append_dropWhile, afterClose?_eq_map_splitAt?] at hClose
  rw [tagAfterOpen?, ← hClose, Option.map_map]
  simp only [List.isEmpty_iff]
  rfl

theorem nameBehind_append (before cs : List Char) :
    nameBehind (before ++ '<' :: cs) before.length = cs.takeWhile isNameChar := by
  rw [nameBehind, List.drop_length_add_append]
  rfl

theorem getElem?_length_append (before cs : List Char) :
    (before ++ cs)[before.length]? = cs.head? := by
  rw [List.getElem?_append_right (Nat.le_refl _), Nat.sub_self, List.head?_eq_getElem?]

theorem firstFrom_close_iff (before cs : List Char) (place : Nat) :
    FirstFrom ['>'] (before ++ '<' :: cs) (before.length + 1) (before.length + 1 + place) ↔
      FirstFrom ['>'] cs 0 place := by
  have hShift := firstFrom_append_iff ['>'] (before ++ ['<']) cs 0 place
  rwa [List.append_assoc, List.length_append] at hShift

theorem isTag_of_tagAfterOpen? {cs name rest : List Char}
    (h : tagAfterOpen? cs = some (name, rest)) :
    ∃ tag, cs = tag ++ rest ∧ ∀ before : List Char,
      name = nameBehind (before ++ '<' :: cs) before.length ∧
        IsTag (before ++ '<' :: cs) before.length (before.length + 1 + tag.length) := by
  rw [tagAfterOpen?_eq] at h
  split at h
  · cases h
  · next hName =>
    obtain ⟨⟨body, rest⟩, hSplit, hEq⟩ := Option.map_eq_some_iff.mp h
    cases hEq
    refine ⟨body ++ ['>'], eq_append_of_splitAt? hSplit, fun before => ?_⟩
    refine ⟨(nameBehind_append before cs).symm, getElem?_length_append before _, ?_,
      before.length + 1 + body.length, ?_, ?_⟩
    · rwa [nameBehind_append]
    · exact (firstFrom_close_iff before cs _).mpr (firstFrom_of_splitAt? hSplit)
    · simp [Nat.add_assoc]

theorem not_isTag_of_tagAfterOpen? {cs : List Char} (h : tagAfterOpen? cs = none)
    (before : List Char) (stop : Nat) : ¬ IsTag (before ++ '<' :: cs) before.length stop := by
  rintro ⟨_, hName, close, hClose, _⟩
  rw [nameBehind_append] at hName
  rw [tagAfterOpen?_eq, if_neg hName, Option.map_eq_none_iff] at h
  obtain ⟨place, rfl⟩ := Nat.exists_eq_add_of_le hClose.behind
  exact not_isPrefix_of_splitAt? h place ((firstFrom_close_iff before cs place).mp hClose).stands

theorem not_isTag_of_ne {c : Char} (h : c ≠ '<') (before cs : List Char) (stop : Nat) :
    ¬ IsTag (before ++ c :: cs) before.length stop := by
  rintro ⟨hOpens, _⟩
  rw [getElem?_length_append] at hOpens
  exact h (Option.some.inj hOpens)

/-- The scan finds the leftmost tags that begin in the rest of a text. -/
theorem mem_tagsFrom_iff {offset : Nat} {cs : List Char} (before : List Char)
    (hOffset : before.length = offset) (hClear : IsClear (IsTag (before ++ cs)) offset)
    (tag : List Char × Nat) :
    tag ∈ tagsFrom offset cs ↔
      BeginsFrom (IsTag (before ++ cs)) offset tag.2 ∧
        tag.1 = nameBehind (before ++ cs) tag.2 := by
  -- Along the scan: what has been read moves to the text before, and the offset stays clear.
  fun_induction tagsFrom offset cs generalizing before with
  | case1 offset =>
    subst hOffset
    constructor
    · intro hMem
      cases hMem
    · rintro ⟨⟨hLe, stop, hLeftmost⟩, _⟩
      have hOpens := (leftmost_iff.mp hLeftmost).1.1
      rw [List.append_nil, List.getElem?_eq_none hLe] at hOpens
      cases hOpens
  | case2 offset cs name rest hTag ih =>
    subst hOffset
    obtain ⟨text, rfl, hAt⟩ := isTag_of_tagAfterOpen? hTag
    obtain ⟨hName, hHere⟩ := hAt before
    have hBehind := hClear.behind hHere (fun other hOther => hHere.unique hOther) hHere.lt
    have hLeftmost := leftmost_iff.mpr ⟨hHere, hClear⟩
    have hLength : before.length + 1 + ((text ++ rest).length - rest.length) =
        before.length + 1 + text.length := by
      rw [List.length_append, Nat.add_sub_cancel]
    have hText : before ++ '<' :: (text ++ rest) = (before ++ '<' :: text) ++ rest := by
      rw [List.append_assoc, List.cons_append]
    have hRest := ih (before ++ '<' :: text)
      (by rw [hLength]; simp only [List.length_append, List.length_cons]; omega)
      (by rwa [hLength, ← hText])
    rw [hLength, ← hText] at hRest
    rw [List.mem_cons, hLength, hRest, beginsFrom_iff_of_leftmost hLeftmost hHere.lt,
      or_and_right]
    refine or_congr_left ⟨?_, ?_⟩
    · rintro rfl
      exact ⟨rfl, hName⟩
    · rintro ⟨hOffset, hFound⟩
      exact Prod.ext (by rw [hFound, hOffset, hName]) hOffset
  | case3 offset cs hNone ih =>
    subst hOffset
    have hNot := not_isTag_of_tagAfterOpen? hNone before
    have hRest := ih (before ++ ['<']) (by simp) (by simpa using hClear.succ hNot)
    rw [hRest, List.append_assoc, List.singleton_append, beginsFrom_succ_iff hNot]
  | case4 offset c cs hOther ih =>
    subst hOffset
    have hNot := not_isTag_of_ne hOther before cs
    have hRest := ih (before ++ [c]) (by simp) (by simpa using hClear.succ hNot)
    rw [hRest, List.append_assoc, List.singleton_append, beginsFrom_succ_iff hNot]

/-! ## Names in the masked text -/

theorem nameBehind_of_getElem? {cs : List Char} {offset : Nat} {c : Char}
    (h : cs[offset + 1]? = some c) :
    nameBehind cs offset = if isNameChar c then c :: nameBehind cs (offset + 1) else [] := by
  obtain ⟨hLess, rfl⟩ := List.getElem?_eq_some_iff.mp h
  rw [nameBehind, List.drop_eq_getElem_cons hLess, List.takeWhile_cons]
  rfl

theorem nameBehind_of_le {cs : List Char} {offset : Nat} (h : cs.length ≤ offset + 1) :
    nameBehind cs offset = [] := by
  rw [nameBehind, List.drop_eq_nil_of_le h, List.takeWhile_nil]

/-- Behind an offset outside every block, a block can only begin at its opener. -/
theorem getElem?_succ_of_isMasked {kinds : List BlockKind} {cs : List Char} {i : Nat}
    (hHere : ¬ IsMasked kinds cs i) (hNext : IsMasked kinds cs (i + 1)) :
    cs[i + 1]? = some '<' := by
  obtain ⟨start, stop, hLeftmost, hStart, hStop⟩ := hNext
  rcases Nat.lt_or_eq_of_le hStart with hBefore | rfl
  · exact absurd ⟨start, stop, hLeftmost, by omega, by omega⟩ hHere
  · exact (leftmost_iff.mp hLeftmost).1.getElem?_start

/-- A name goes on as in the text until it ends. No name character begins a block, and the blanks of
a block are no name characters. -/
theorem nameBehind_mask {kinds : List BlockKind} {cs : List Char} {i : Nat}
    (hHere : ¬ IsMasked kinds cs i) : nameBehind (mask kinds cs) i = nameBehind cs i := by
  induction hAhead : cs.length - i generalizing i with
  | zero =>
    rw [nameBehind_of_le (by rw [length_mask]; omega), nameBehind_of_le (by omega)]
  | succ ahead ih =>
    by_cases hNext : IsMasked kinds cs (i + 1)
    · have hOpens := getElem?_succ_of_isMasked hHere hNext
      have hBlank := getElem?_mask_of_isMasked hNext
      rw [hOpens] at hBlank
      rw [nameBehind_of_getElem? hOpens, nameBehind_of_getElem? hBlank]
      rfl
    · have hSame := getElem?_mask_of_not_isMasked hNext
      cases hChar : cs[i + 1]? with
      | none =>
        have hEnd := List.getElem?_eq_none_iff.mp hChar
        rw [nameBehind_of_le (by rwa [length_mask]), nameBehind_of_le hEnd]
      | some c =>
        rw [hChar] at hSame
        rw [nameBehind_of_getElem? hSame, nameBehind_of_getElem? hChar, ih hNext (by omega)]

/-! ## Occurrences -/

/-- The start tag occurs in the text, next to those that have been found: it opens outside every
block, it closes, and it does not stand inside an earlier one of them. -/
structure IsOccurrence (cs : List Char) (found : List TagOccurrence) (tag : TagOccurrence) :
    Prop where
  opens : cs[tag.offset]? = some '<'
  unmasked : ¬ IsMasked BlockKind.all cs tag.offset
  name_eq : tag.name.toList = nameBehind cs tag.offset
  named : tag.name ≠ ""
  closes : ∃ close, tag.offset < close ∧ (maskLiteralBlocks cs)[close]? = some '>'
  apart : ∀ earlier ∈ found, earlier.offset < tag.offset → ∀ close,
    FirstFrom ['>'] (maskLiteralBlocks cs) (earlier.offset + 1) close → close < tag.offset
  line_eq : tag.line = 1 + (cs.take tag.offset).count '\n'

/-- A start tag of the masked text, told from the text itself. -/
theorem exists_isTag_mask_iff (cs : List Char) (offset : Nat) :
    (∃ stop, IsTag (maskLiteralBlocks cs) offset stop) ↔
      cs[offset]? = some '<' ∧ ¬ IsMasked BlockKind.all cs offset ∧ nameBehind cs offset ≠ [] ∧
        ∃ close, offset < close ∧ (maskLiteralBlocks cs)[close]? = some '>' := by
  rw [exists_isTag_iff, maskLiteralBlocks, getElem?_mask_eq_some_iff (by decide) (by decide),
    and_assoc]
  refine and_congr_right fun _ => and_congr_right fun hUnmasked => ?_
  rw [nameBehind_mask hUnmasked]

theorem mem_startTags_iff (cs : List Char) (tag : TagOccurrence) :
    tag ∈ startTags cs (.ofText cs) ↔
      (∃ stop, Leftmost (IsTag (maskLiteralBlocks cs)) tag.offset stop) ∧
        tag.name.toList = nameBehind (maskLiteralBlocks cs) tag.offset ∧
        tag.line = 1 + (cs.take tag.offset).count '\n' := by
  have hScan := mem_tagsFrom_iff [] rfl (@isClear_zero (IsTag (maskLiteralBlocks cs)))
  constructor
  · intro hMem
    obtain ⟨⟨name, offset⟩, hFound, rfl⟩ := List.mem_map.mp hMem
    obtain ⟨⟨_, hLeftmost⟩, hName⟩ := (hScan _).mp hFound
    exact ⟨hLeftmost, String.toList_ofList.trans hName, LineIndex.lineAt_ofText cs offset⟩
  · rintro ⟨hLeftmost, hName, hLine⟩
    refine List.mem_map.mpr ⟨(tag.name.toList, tag.offset),
      (hScan _).mpr ⟨⟨Nat.zero_le _, hLeftmost⟩, hName⟩, ?_⟩
    dsimp only
    rw [String.ofList_toList, LineIndex.lineAt_ofText, ← hLine]

theorem leftmost_of_mem_startTags {cs : List Char} {tag : TagOccurrence}
    (h : tag ∈ startTags cs (.ofText cs)) :
    ∃ close, FirstFrom ['>'] (maskLiteralBlocks cs) (tag.offset + 1) close ∧
      Leftmost (IsTag (maskLiteralBlocks cs)) tag.offset (close + 1) := by
  obtain ⟨⟨stop, hLeftmost⟩, _⟩ := (mem_startTags_iff cs tag).mp h
  obtain ⟨_, _, close, hClose, rfl⟩ := (leftmost_iff.mp hLeftmost).1
  exact ⟨close, hClose, hLeftmost⟩

/-- Every match that counts before an offset has been found, so the offset is clear when it is
apart from what has been found. -/
theorem isClear_iff (cs : List Char) (offset : Nat) :
    IsClear (IsTag (maskLiteralBlocks cs)) offset ↔
      ∀ earlier ∈ startTags cs (.ofText cs), earlier.offset < offset → ∀ close,
        FirstFrom ['>'] (maskLiteralBlocks cs) (earlier.offset + 1) close → close < offset := by
  constructor
  · intro hClear earlier hMem hLess close hClose
    obtain ⟨first, hFirst, hLeftmost⟩ := leftmost_of_mem_startTags hMem
    rw [hFirst.unique hClose]
    exact hClear earlier.offset hLess _ hLeftmost
  · intro hApart earlier hLess reach hLeftmost
    obtain ⟨_, _, close, hClose, rfl⟩ := (leftmost_iff.mp hLeftmost).1
    let tag : TagOccurrence := ⟨String.ofList (nameBehind (maskLiteralBlocks cs) earlier), earlier,
      1 + (cs.take earlier).count '\n'⟩
    have hMem : tag ∈ startTags cs (.ofText cs) :=
      (mem_startTags_iff cs tag).mpr ⟨⟨_, hLeftmost⟩, String.toList_ofList, rfl⟩
    exact hApart tag hMem hLess close hClose

/-- The scan goes forward and finds exactly the start tags that occur in the text. -/
theorem startTags_exact (cs : List Char) :
    (startTags cs (.ofText cs)).Pairwise (fun tag later => tag.offset < later.offset) ∧
      ∀ tag, tag ∈ startTags cs (.ofText cs) ↔
        IsOccurrence cs (startTags cs (.ofText cs)) tag := by
  refine ⟨?_, fun tag => ?_⟩
  · rw [startTags, List.pairwise_map]
    exact pairwise_tagsFrom 0 (maskLiteralBlocks cs)
  rw [mem_startTags_iff]
  constructor
  · rintro ⟨⟨stop, hLeftmost⟩, hName, hLine⟩
    obtain ⟨hTag, hClear⟩ := leftmost_iff.mp hLeftmost
    obtain ⟨hOpens, hUnmasked, hSome, hCloses⟩ := (exists_isTag_mask_iff cs _).mp ⟨stop, hTag⟩
    rw [maskLiteralBlocks, nameBehind_mask hUnmasked] at hName
    exact {
      opens := hOpens
      unmasked := hUnmasked
      name_eq := hName
      named := by rwa [← hName, Ne, String.toList_eq_nil_iff] at hSome
      closes := hCloses
      apart := (isClear_iff cs _).mp hClear
      line_eq := hLine }
  · intro h
    have hSome : nameBehind cs tag.offset ≠ [] := by
      rw [← h.name_eq, Ne, String.toList_eq_nil_iff]
      exact h.named
    obtain ⟨stop, hTag⟩ := (exists_isTag_mask_iff cs tag.offset).mpr
      ⟨h.opens, h.unmasked, hSome, h.closes⟩
    refine ⟨⟨stop, leftmost_iff.mpr ⟨hTag, (isClear_iff cs _).mpr h.apart⟩⟩, ?_, h.line_eq⟩
    rw [maskLiteralBlocks, nameBehind_mask h.unmasked, h.name_eq]

end DtdConformance.Markup
