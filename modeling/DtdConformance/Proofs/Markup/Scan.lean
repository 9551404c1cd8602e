import DtdConformance.Markup.StartTag
import DtdConformance.Proofs.Text.Character
import DtdConformance.Proofs.Text.Search

/-! # Scanning piece by piece

What the scanner does with one piece of a text, whatever follows it. A block, a text without a
less-than sign and markup without a name hold no start tag; an opening holds one. In each case the
scan goes on behind the piece as if nothing had stood before.
-/
namespace DtdConformance.Markup
set_option autoImplicit false

open Text

/-! ## Masking -/

theorem BlockKind.terminator_eq (kind : BlockKind) :
    ∃ init, '>' ∉ init ∧ kind.terminator = init ++ ['>'] := by
  cases kind with
  | comment => exact ⟨['-', '-'], by decide, rfl⟩
  | characterData => exact ⟨[']', ']'], by decide, rfl⟩
  | instruction => exact ⟨['?'], by decide, rfl⟩

theorem BlockKind.opener_ne_nil (kind : BlockKind) : kind.opener ≠ [] := by
  cases kind <;> exact List.cons_ne_nil _ _

theorem blockOf?_block {kind : BlockKind} {body : List Char}
    (hBody : ¬ kind.terminator <:+: body) (rest : List Char) :
    blockOf? kind (kind.opener ++ body ++ kind.terminator ++ rest) =
      some (kind.opener ++ body ++ kind.terminator, rest) := by
  obtain ⟨init, hLast, hTerminator⟩ := kind.terminator_eq
  rw [hTerminator] at hBody
  have hSplit := splitAt?_append hLast hBody rest
  rw [← hTerminator] at hSplit
  rw [blockOf?, (after?_eq_some_iff kind.opener _ (body ++ (kind.terminator ++ rest))).mpr
    (by simp only [List.append_assoc])]
  simp only [hSplit, Option.map_some]

theorem blockOf?_eq_none {kind : BlockKind} {cs : List Char} (h : ¬ kind.opener <+: cs) :
    blockOf? kind cs = none := by
  rw [blockOf?, (after?_eq_none_iff _ _).mpr h]

theorem mem_all (kind : BlockKind) : kind ∈ BlockKind.all := by
  cases kind <;> decide

theorem opener_unique {kind other : BlockKind} {cs : List Char} (h : kind.opener <+: cs)
    (hOther : other.opener <+: cs) : kind = other := by
  obtain ⟨rest, rfl⟩ := h
  cases kind <;> cases other <;> simp [BlockKind.opener] at hOther ⊢

theorem blockAt?_block {kinds : List BlockKind} {kind : BlockKind} (hKind : kind ∈ kinds)
    {body : List Char} (hBody : ¬ kind.terminator <:+: body) (rest : List Char) :
    blockAt? kinds (kind.opener ++ body ++ kind.terminator ++ rest) =
      some (kind.opener ++ body ++ kind.terminator, rest) := by
  have hBlock := blockOf?_block hBody rest
  have hOpener : kind.opener <+: kind.opener ++ body ++ kind.terminator ++ rest := by
    simp only [List.append_assoc, List.prefix_append]
  cases hFound : blockAt? kinds (kind.opener ++ body ++ kind.terminator ++ rest) with
  | none =>
    have hNone := List.findSome?_eq_none_iff.mp hFound kind hKind
    rw [hBlock] at hNone
    cases hNone
  | some found =>
    obtain ⟨other, _, hOther⟩ := exists_blockOf?_of_blockAt? hFound
    have hPrefix : other.opener <+: kind.opener ++ body ++ kind.terminator ++ rest := by
      by_contra hNot
      rw [blockOf?_eq_none hNot] at hOther
      cases hOther
    rw [← opener_unique hOpener hPrefix, hBlock] at hOther
    exact hOther.symm

theorem blockAt?_eq_none {kinds : List BlockKind} {cs : List Char}
    (h : ∀ kind ∈ kinds, ¬ kind.opener <+: cs) : blockAt? kinds cs = none :=
  List.findSome?_eq_none_iff.mpr fun kind hKind => blockOf?_eq_none (h kind hKind)

theorem mask_nil (kinds : List BlockKind) : mask kinds [] = [] := by
  rw [mask, pieces]
  split
  · next hSome => cases length_lt_of_blockAt? hSome
  · rfl

theorem mask_of_blockAt? {kinds : List BlockKind} {cs block rest : List Char}
    (h : blockAt? kinds cs = some (block, rest)) :
    mask kinds cs = blankOut block ++ mask kinds rest := by
  rw [mask, pieces]
  split
  · next hSome =>
    cases h.symm.trans hSome
    rw [List.flatMap_cons, Piece.masked, mask]
  · next hNone => simp [h] at hNone

theorem mask_cons_of_blockAt? {kinds : List BlockKind} {c : Char} {cs : List Char}
    (h : blockAt? kinds (c :: cs) = none) : mask kinds (c :: cs) = c :: mask kinds cs := by
  rw [mask, pieces]
  split
  · next hSome => simp [h] at hSome
  · rw [List.flatMap_cons, Piece.masked, mask, List.singleton_append]

theorem mask_cons {kinds : List BlockKind} {c : Char} {cs : List Char}
    (h : ∀ kind ∈ kinds, ¬ kind.opener <+: c :: cs) :
    mask kinds (c :: cs) = c :: mask kinds cs :=
  mask_cons_of_blockAt? (blockAt?_eq_none h)

theorem opener_prefix_cons {kind : BlockKind} {c : Char} {cs : List Char}
    (h : kind.opener <+: c :: cs) : c = '<' ∧ ∃ d ∈ cs.head?, d = '!' ∨ d = '?' := by
  obtain ⟨rest, hRest⟩ := h
  cases kind <;> cases hRest <;> simp

theorem mask_append_of_not_mem {kinds : List BlockKind} {text : List Char} (h : '<' ∉ text)
    (cs : List Char) : mask kinds (text ++ cs) = text ++ mask kinds cs := by
  induction text with
  | nil => rfl
  | cons c text ih =>
    rw [List.mem_cons, not_or] at h
    rw [List.cons_append, mask_cons (fun _ _ hOpener => h.1 (opener_prefix_cons hOpener).1.symm),
      ih h.2, List.cons_append]

/-- A text in which no block opens is left as it is, when what follows cannot go on with an
opener. -/
theorem mask_append_of_not_isInfix {kinds : List BlockKind} {text : List Char}
    (hText : ∀ kind ∈ kinds, ¬ kind.opener <:+: text) {cs : List Char}
    (hRest : ∀ kind ∈ kinds, ∀ c ∈ cs.head?, c ∉ kind.opener.tail) :
    mask kinds (text ++ cs) = text ++ mask kinds cs := by
  induction text with
  | nil => rfl
  | cons c text ih =>
    have hNone (kind : BlockKind) (hKind : kind ∈ kinds) : ¬ kind.opener <+: c :: (text ++ cs) := by
      obtain ⟨first, others, hOpener⟩ := List.exists_cons_of_ne_nil kind.opener_ne_nil
      have hText := hText kind hKind
      have hRest := hRest kind hKind
      rw [hOpener] at hText hRest ⊢
      exact not_isPrefix_append hText hRest (List.cons_ne_nil c text)
    rw [List.cons_append, mask_cons hNone, ih fun kind hKind hIn =>
      hText kind hKind (hIn.trans (List.suffix_cons c text).isInfix), List.cons_append]

/-- Where a less-than sign stands, the masked text has it or a blank. -/
theorem head?_mask_cons (kinds : List BlockKind) (cs : List Char) :
    ∀ c ∈ (mask kinds ('<' :: cs)).head?, c = '<' ∨ c = ' ' := by
  intro c hHead
  cases hBlock : blockAt? kinds ('<' :: cs) with
  | none =>
    rw [mask_cons_of_blockAt? hBlock] at hHead
    cases hHead
    exact Or.inl rfl
  | some found =>
    obtain ⟨block, rest⟩ := found
    obtain ⟨kind, _, hKind⟩ := exists_blockOf?_of_blockAt? hBlock
    obtain ⟨first, others, rfl⟩ := List.exists_cons_of_ne_nil (ne_nil_of_blockOf? hKind)
    obtain ⟨rfl, _⟩ := List.cons.inj (eq_append_of_blockOf? hKind)
    rw [mask_of_blockAt? hBlock] at hHead
    cases hHead
    exact Or.inr rfl

/-! ## Start tags -/

theorem tagsFrom_cons_of_ne {c : Char} (h : c ≠ '<') (offset : Nat) (cs : List Char) :
    tagsFrom offset (c :: cs) = tagsFrom (offset + 1) cs := by
  rw [tagsFrom, if_neg h]

theorem tagsFrom_append_of_not_mem {text : List Char} (h : '<' ∉ text) (offset : Nat)
    (cs : List Char) : tagsFrom offset (text ++ cs) = tagsFrom (offset + text.length) cs := by
  induction text generalizing offset with
  | nil => rfl
  | cons c text ih =>
    rw [List.mem_cons, not_or] at h
    rw [List.cons_append, tagsFrom_cons_of_ne (Ne.symm h.1), ih h.2, List.length_cons,
      Nat.add_assoc, Nat.add_comm 1]

theorem tagsFrom_of_tagAfterOpen? {cs name rest : List Char}
    (h : tagAfterOpen? cs = some (name, rest)) (offset : Nat) :
    tagsFrom offset ('<' :: cs) =
      (name, offset) :: tagsFrom (offset + 1 + (cs.length - rest.length)) rest := by
  rw [tagsFrom, if_pos rfl]
  split
  · next hSome =>
    cases h.symm.trans hSome
    rfl
  · next hNone => simp [h] at hNone

theorem tagsFrom_of_no_name {c : Char} (h : isNameChar c = false) (offset : Nat)
    (cs : List Char) : tagsFrom offset ('<' :: c :: cs) = tagsFrom (offset + 1) (c :: cs) := by
  have hNone : tagAfterOpen? (c :: cs) = none := by
    simp [tagAfterOpen?, h]
  rw [tagsFrom, if_pos rfl]
  split
  · next hSome => simp [hNone] at hSome
  · rfl

/-- The first greater-than sign need not be the one that ends the tag. -/
theorem afterClose?_append {text : List Char} (h : '>' ∈ text) (cs : List Char) :
    ∃ rest, rest <:+ text ∧ afterClose? (text ++ cs) = some (rest ++ cs) := by
  induction text with
  | nil => cases h
  | cons c text ih =>
    rw [List.cons_append, afterClose?]
    split
    · exact ⟨text, List.suffix_cons c text, rfl⟩
    · next hOther =>
      rcases List.mem_cons.mp h with hHere | hLater
      · exact absurd hHere.symm hOther
      · obtain ⟨rest, hSuffix, hClose⟩ := ih hLater
        exact ⟨rest, hSuffix.trans (List.suffix_cons c text), hClose⟩

theorem tagAfterOpen?_append {name body : List Char} (hName : IsName name)
    (hHead : ∀ c ∈ body.head?, isNameChar c = false) (hClose : '>' ∈ body) (cs : List Char) :
    ∃ rest, rest <:+ body ∧ tagAfterOpen? (name ++ (body ++ cs)) = some (name, rest ++ cs) := by
  obtain ⟨rest, hSuffix, hAfter⟩ := afterClose?_append hClose cs
  have hBodyHead : ∀ c ∈ (body ++ cs).head?, isNameChar c = false := by
    cases body with
    | nil => cases hClose
    | cons => exact hHead
  refine ⟨rest, hSuffix, ?_⟩
  rw [tagAfterOpen?, takeWhile_run hName.2 hBodyHead, dropWhile_run hName.2 hBodyHead, hAfter]
  simp [hName.1]

/-! ## Pieces -/

/-- The start tags of a text that has not been masked yet. -/
def scanFrom (offset : Nat) (cs : List Char) : List (List Char × Nat) :=
  tagsFrom offset (maskLiteralBlocks cs)

theorem scanFrom_nil (offset : Nat) : scanFrom offset [] = [] := by
  rw [scanFrom, maskLiteralBlocks, mask_nil, tagsFrom]

theorem scanFrom_text {text : List Char} (h : '<' ∉ text) (offset : Nat) (cs : List Char) :
    scanFrom offset (text ++ cs) = scanFrom (offset + text.length) cs := by
  rw [scanFrom, maskLiteralBlocks, mask_append_of_not_mem h, tagsFrom_append_of_not_mem h]
  rfl

theorem scanFrom_block {kind : BlockKind} {body : List Char}
    (h : ¬ kind.terminator <:+: body) (offset : Nat) (cs : List Char) :
    scanFrom offset (kind.opener ++ body ++ kind.terminator ++ cs) =
      scanFrom (offset + (kind.opener ++ body ++ kind.terminator).length) cs := by
  rw [scanFrom, maskLiteralBlocks, mask_of_blockAt? (blockAt?_block (mem_all kind) h cs),
    tagsFrom_append_of_not_mem (not_mem_blankOut _ (by decide) (by decide)), length_blankOut]
  rfl

theorem scanFrom_nameless {c : Char} {text : List Char} (hChar : isNameChar c = false)
    (hText : '<' ∉ c :: text) (cs : List Char)
    (hOpener : ∀ kind : BlockKind, ¬ kind.opener <+: '<' :: (c :: text ++ cs)) (offset : Nat) :
    scanFrom offset ('<' :: (c :: text ++ cs)) =
      scanFrom (offset + ('<' :: c :: text).length) cs := by
  rw [scanFrom, maskLiteralBlocks, mask_cons fun kind _ => hOpener kind,
    mask_append_of_not_mem hText, List.cons_append, tagsFrom_of_no_name hChar, ← List.cons_append,
    tagsFrom_append_of_not_mem hText, Nat.add_assoc, Nat.add_comm 1]
  rfl

theorem mask_opening {kinds : List BlockKind} {name body : List Char} (hName : IsName name)
    (hOpen : '<' ∉ body) (cs : List Char) :
    mask kinds ('<' :: (name ++ (body ++ cs))) = '<' :: (name ++ (body ++ mask kinds cs)) := by
  have hHead : ∀ c ∈ (name ++ (body ++ cs)).head?, isNameChar c = true :=
    head?_append_of_all hName.1 hName.2
  rw [mask_cons, mask_append_of_not_mem (not_mem_of_nameChar hName.2 (by decide)),
    mask_append_of_not_mem hOpen]
  intro kind _ hOpener
  obtain ⟨_, d, hMem, hMark⟩ := opener_prefix_cons hOpener
  have hChar := hHead d hMem
  rcases hMark with rfl | rfl <;> exact absurd hChar (by decide)

theorem scanFrom_opening {name body : List Char} (hName : IsName name)
    (hHead : ∀ c ∈ body.head?, isNameChar c = false) (hClose : '>' ∈ body) (hOpen : '<' ∉ body)
    (offset : Nat) (cs : List Char) :
    scanFrom offset ('<' :: (name ++ (body ++ cs))) =
      (name, offset) :: scanFrom (offset + ('<' :: (name ++ body)).length) cs := by
  obtain ⟨rest, hSuffix, hTag⟩ := tagAfterOpen?_append hName hHead hClose
    (mask BlockKind.all cs)
  have hShort := hSuffix.length_le
  rw [scanFrom, maskLiteralBlocks, mask_opening hName hOpen, tagsFrom_of_tagAfterOpen? hTag,
    tagsFrom_append_of_not_mem (fun hMem => hOpen (hSuffix.subset hMem)), scanFrom,
    maskLiteralBlocks]
  congr 2
  simp only [List.length_cons, List.length_append]
  omega

end DtdConformance.Markup
