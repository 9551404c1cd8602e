import DtdConformance.Proofs.Dtd.Presence
import DtdConformance.Proofs.Markup.Scan
import DtdConformance.Proofs.Text.LineIndex

/-! # Written declarations

A text of declarations as it is written down: declarations and comments, with filling text between
them in which neither opens. What a part may hold belongs to its type. The scan of such a text finds
its declarations, each where it stands, and nothing that is only quoted in a comment.
-/
namespace DtdConformance.Dtd
set_option autoImplicit false

open Text Markup

structure Filling where
  chars : List Char
  undeclared : ¬ declarationOpener <:+: chars
  uncommented : ¬ BlockKind.comment.opener <:+: chars

structure Comment where
  body : List Char
  unclosed : ¬ BlockKind.comment.terminator <:+: body

/-- The content model may go over several lines and begin or end with blanks. -/
structure WrittenDeclaration where
  gap : List Char
  name : List Char
  space : List Char
  spec : List Char
  isGap : IsGap gap
  isName : IsName name
  isSpace : IsGap space
  hasText : hasText spec = true
  unclosed : '>' ∉ spec
  uncommented : ¬ BlockKind.comment.opener <:+: spec

inductive Part where
  | comment (remark : Comment)
  | declaration (written : WrittenDeclaration)

/-- Every part is followed by filling, which may be empty. -/
structure Source where
  opening : Filling
  parts : List (Part × Filling)

def Comment.chars (comment : Comment) : List Char :=
  BlockKind.comment.opener ++ comment.body ++ BlockKind.comment.terminator

def WrittenDeclaration.chars (declaration : WrittenDeclaration) : List Char :=
  declarationOpener ++ (declaration.gap ++ (declaration.name ++
    (declaration.space ++ (declaration.spec ++ ['>']))))

def Part.chars : Part → List Char
  | comment remark => remark.chars
  | declaration written => written.chars

def charsOfParts (parts : List (Part × Filling)) : List Char :=
  parts.flatMap fun part => part.1.chars ++ part.2.chars

/-- The declarations among the parts, each with the text before it. -/
def declaredIn (before : List Char) : List (Part × Filling) →
    List (List Char × WrittenDeclaration)
  | [] => []
  | (.comment remark, filling) :: parts =>
    declaredIn (before ++ remark.chars ++ filling.chars) parts
  | (.declaration written, filling) :: parts =>
    (before, written) :: declaredIn (before ++ written.chars ++ filling.chars) parts

namespace Source

def chars (source : Source) : List Char := source.opening.chars ++ charsOfParts source.parts

def declared (source : Source) : List (List Char × WrittenDeclaration) :=
  declaredIn source.opening.chars source.parts

end Source

theorem charsOfParts_cons (part : Part) (filling : Filling) (parts : List (Part × Filling)) :
    charsOfParts ((part, filling) :: parts) =
      part.chars ++ (filling.chars ++ charsOfParts parts) := by
  rw [charsOfParts, List.flatMap_cons, List.append_assoc]
  rfl

theorem isPrefix_of_mem_declaredIn {before : List Char} {parts : List (Part × Filling)}
    {entry : List Char × WrittenDeclaration} (h : entry ∈ declaredIn before parts) :
    entry.1 ++ entry.2.chars <+: before ++ charsOfParts parts := by
  induction parts generalizing before with
  | nil => cases h
  | cons part parts ih =>
    obtain ⟨part, filling⟩ := part
    rw [charsOfParts_cons]
    cases part with
    | comment remark =>
      have hPrefix := ih h
      rwa [List.append_assoc, List.append_assoc] at hPrefix
    | declaration written =>
      rcases List.mem_cons.mp h with rfl | hLater
      · rw [← List.append_assoc]
        exact List.prefix_append _ _
      · have hPrefix := ih hLater
        rwa [List.append_assoc, List.append_assoc] at hPrefix

/-! ## One declaration -/

/-- The blanks before a content model belong to the gap after the name. -/
theorem specAfterName?_written (declaration : WrittenDeclaration) (cs : List Char) :
    specAfterName? (declaration.space ++ (declaration.spec ++ '>' :: cs)) =
      some (trimLeft declaration.spec, cs) := by
  obtain ⟨hNonempty, hBlank⟩ := declaration.isSpace
  have hInside : '>' ∉ declaration.space ++ declaration.spec := by
    rw [List.mem_append, not_or]
    exact ⟨not_mem_of_blank hBlank isBlank_close, declaration.unclosed⟩
  have hGap : ((declaration.space ++ declaration.spec).takeWhile isBlank).isEmpty = false := by
    rw [List.takeWhile_append_of_pos hBlank]
    simp [hNonempty]
  have hBody : (declaration.space ++ declaration.spec).dropWhile isBlank =
      trimLeft declaration.spec := by
    rw [List.dropWhile_append_of_pos hBlank, trimLeft]
  have hText : (trimLeft declaration.spec).isEmpty = false := by
    obtain ⟨c, hMem, hChar⟩ := (hasText_eq_true_iff declaration.spec).mp declaration.hasText
    rw [trimLeft, List.isEmpty_eq_false_iff, ne_eq, List.dropWhile_eq_nil_iff]
    intro hAll
    rw [hAll c hMem] at hChar
    cases hChar
  rw [← List.append_assoc, specAfterName?_append_close hInside, hGap, hBody, hText]
  rfl

theorem declarationAt?_written (declaration : WrittenDeclaration) (cs : List Char) :
    declarationAt? (declaration.chars ++ cs) =
      some (declaration.name, trimLeft declaration.spec, cs) := by
  have hInside : declaration.chars ++ cs = declarationOpener ++ (declaration.gap ++
      (declaration.name ++ (declaration.space ++ (declaration.spec ++ '>' :: cs)))) := by
    simp only [WrittenDeclaration.chars, List.append_assoc, List.singleton_append]
  have hNameHead : ∀ c ∈ (declaration.name ++ (declaration.space ++
      (declaration.spec ++ '>' :: cs))).head?, isBlank c = false :=
    head?_append_of_all declaration.isName.1
      fun c hMem => isBlank_eq_false_of_isNameChar (declaration.isName.2 c hMem)
  have hSpaceHead : ∀ c ∈ (declaration.space ++ (declaration.spec ++ '>' :: cs)).head?,
      isNameChar c = false :=
    head?_append_of_all declaration.isSpace.1
      fun c hMem => isNameChar_eq_false_of_isBlank (declaration.isSpace.2 c hMem)
  rw [declarationAt?, (after?_eq_some_iff ..).mpr hInside, Option.bind_some]
  unfold afterOpener?
  simp only [takeWhile_run declaration.isGap.2 hNameHead,
    dropWhile_run declaration.isGap.2 hNameHead, takeWhile_run declaration.isName.2 hSpaceHead,
    dropWhile_run declaration.isName.2 hSpaceHead, specAfterName?_written]
  simp [declaration.isGap.1, declaration.isName.1]

/-! ## Scanning -/

theorem declarationsFrom_nil (offset : Nat) : declarationsFrom offset [] = [] := by
  rw [declarationsFrom]
  split
  · next hSome => cases length_lt_of_declarationAt? hSome
  · rfl

theorem declarationsFrom_cons {c : Char} {cs : List Char} (h : ¬ declarationOpener <+: c :: cs)
    (offset : Nat) : declarationsFrom offset (c :: cs) = declarationsFrom (offset + 1) cs := by
  have hNone : declarationAt? (c :: cs) = none := by
    rw [declarationAt?, (after?_eq_none_iff _ _).mpr h, Option.bind_none]
  rw [declarationsFrom]
  split
  · next hSome => cases hNone.symm.trans hSome
  · rfl

theorem declarationsFrom_append_of_not_isInfix {text cs : List Char}
    (hText : ¬ declarationOpener <:+: text) (hRest : ∀ c ∈ cs.head?, c ∉ declarationOpener.tail)
    (offset : Nat) :
    declarationsFrom offset (text ++ cs) = declarationsFrom (offset + text.length) cs := by
  induction text generalizing offset with
  | nil => rfl
  | cons c text ih =>
    have hNone : ¬ declarationOpener <+: c :: (text ++ cs) :=
      not_isPrefix_append hText hRest (List.cons_ne_nil c text)
    have hText : ¬ declarationOpener <:+: text :=
      fun hIn => hText (hIn.trans (List.suffix_cons c text).isInfix)
    rw [List.cons_append, declarationsFrom_cons hNone, ih hText, List.length_cons, Nat.add_assoc,
      Nat.add_comm 1]

theorem declarationsFrom_append_of_not_mem {text : List Char} (h : '<' ∉ text) (cs : List Char)
    (offset : Nat) :
    declarationsFrom offset (text ++ cs) = declarationsFrom (offset + text.length) cs := by
  induction text generalizing offset with
  | nil => rfl
  | cons c text ih =>
    rw [List.mem_cons, not_or] at h
    rw [List.cons_append, declarationsFrom_cons (fun hOpener => h.1 (List.cons_prefix_cons.mp
      hOpener).1), ih h.2, List.length_cons, Nat.add_assoc, Nat.add_comm 1]

theorem declarationsFrom_written (declaration : WrittenDeclaration) (cs : List Char)
    (offset : Nat) : declarationsFrom offset (declaration.chars ++ cs) =
      ⟨declaration.name, trimLeft declaration.spec, offset⟩ ::
        declarationsFrom (offset + declaration.chars.length) cs := by
  rw [declarationsFrom]
  split
  · next hSome =>
    cases (declarationAt?_written declaration cs).symm.trans hSome
    rw [List.length_append, Nat.add_sub_cancel]
  · next hNone => cases (declarationAt?_written declaration cs).symm.trans hNone

/-- The declarations of a text that stands at the given offset and still has its comments. -/
def scanFrom (offset : Nat) (cs : List Char) : List Declaration :=
  declarationsFrom offset (maskComments cs)

/-- Filling is followed by a part or by nothing. -/
theorem scanFrom_filling (filling : Filling) {cs : List Char} (hRest : ∀ c ∈ cs.head?, c = '<')
    (offset : Nat) :
    scanFrom offset (filling.chars ++ cs) = scanFrom (offset + filling.chars.length) cs := by
  have hMask : maskComments (filling.chars ++ cs) = filling.chars ++ maskComments cs := by
    refine mask_append_of_not_isInfix (fun kind hKind => ?_) (fun kind hKind c hHead => ?_)
    · cases List.mem_singleton.mp hKind
      exact filling.uncommented
    · cases List.mem_singleton.mp hKind
      cases hRest c hHead
      decide
  have hHead : ∀ c ∈ (maskComments cs).head?, c ∉ declarationOpener.tail := by
    intro c hHead
    cases cs with
    | nil =>
      rw [maskComments, mask_nil] at hHead
      cases hHead
    | cons d cs =>
      cases hRest d rfl
      rcases head?_mask_cons [.comment] cs c hHead with rfl | rfl <;> decide
  rw [scanFrom, hMask, declarationsFrom_append_of_not_isInfix filling.undeclared hHead]
  rfl

theorem scanFrom_comment (comment : Comment) (cs : List Char) (offset : Nat) :
    scanFrom offset (comment.chars ++ cs) = scanFrom (offset + comment.chars.length) cs := by
  have hBlock := blockAt?_block (List.mem_singleton_self BlockKind.comment) comment.unclosed cs
  rw [scanFrom, maskComments, Comment.chars, mask_of_blockAt? hBlock,
    declarationsFrom_append_of_not_mem (not_mem_blankOut _ (by decide) (by decide)),
    length_blankOut]
  rfl

/-- The content model and the end of a declaration stay when comments are masked. -/
theorem maskComments_spec (declaration : WrittenDeclaration) (cs : List Char) :
    maskComments (declaration.spec ++ '>' :: cs) =
      declaration.spec ++ '>' :: maskComments cs := by
  have hSpec : maskComments (declaration.spec ++ '>' :: cs) =
      declaration.spec ++ maskComments ('>' :: cs) := by
    refine mask_append_of_not_isInfix (fun kind hKind => ?_) (fun kind hKind c hHead => ?_)
    · cases List.mem_singleton.mp hKind
      exact declaration.uncommented
    · cases List.mem_singleton.mp hKind
      cases hHead
      decide
  have hClose : maskComments ('>' :: cs) = '>' :: maskComments cs :=
    mask_append_of_not_mem (show '<' ∉ ['>'] by decide) cs
  rw [hSpec, hClose]

/-- What stands between the first character of a declaration and its content model. -/
def WrittenDeclaration.front (declaration : WrittenDeclaration) : List Char :=
  declarationOpener.tail ++ (declaration.gap ++ (declaration.name ++ declaration.space))

theorem chars_append_eq_front (declaration : WrittenDeclaration) (cs : List Char) :
    declaration.chars ++ cs =
      '<' :: (declaration.front ++ (declaration.spec ++ '>' :: cs)) := by
  simp only [WrittenDeclaration.chars, WrittenDeclaration.front, declarationOpener,
    List.tail_cons, List.append_assoc, List.cons_append, List.nil_append]

theorem not_mem_front (declaration : WrittenDeclaration) : '<' ∉ declaration.front := by
  simp only [WrittenDeclaration.front, List.mem_append, not_or]
  exact ⟨by decide, not_mem_of_blank declaration.isGap.2 (by decide),
    not_mem_of_nameChar declaration.isName.2 (by decide),
    not_mem_of_blank declaration.isSpace.2 (by decide)⟩

/-- No comment opens in a declaration. -/
theorem maskComments_written (declaration : WrittenDeclaration) (cs : List Char) :
    maskComments (declaration.chars ++ cs) = declaration.chars ++ maskComments cs := by
  have hOpener : ∀ kind ∈ [BlockKind.comment],
      ¬ kind.opener <+: '<' :: (declaration.front ++ (declaration.spec ++ '>' :: cs)) := by
    rintro kind hKind ⟨rest, hRest⟩
    cases List.mem_singleton.mp hKind
    simp [BlockKind.opener, WrittenDeclaration.front, declarationOpener] at hRest
  rw [chars_append_eq_front, chars_append_eq_front, maskComments, mask_cons hOpener,
    mask_append_of_not_mem (not_mem_front declaration), ← maskComments, maskComments_spec]

theorem scanFrom_declaration (declaration : WrittenDeclaration) (cs : List Char) (offset : Nat) :
    scanFrom offset (declaration.chars ++ cs) =
      ⟨declaration.name, trimLeft declaration.spec, offset⟩ ::
        scanFrom (offset + declaration.chars.length) cs := by
  rw [scanFrom, maskComments_written, declarationsFrom_written]
  rfl

/-- What the scan tells of a declaration with the text before it. -/
def placed (entry : List Char × WrittenDeclaration) : Declaration :=
  ⟨entry.2.name, trimLeft entry.2.spec, entry.1.length⟩

theorem head?_charsOfParts (parts : List (Part × Filling)) :
    ∀ c ∈ (charsOfParts parts).head?, c = '<' := by
  cases parts with
  | nil =>
    intro c hHead
    cases hHead
  | cons part parts =>
    obtain ⟨part, filling⟩ := part
    intro c hHead
    rw [charsOfParts_cons] at hHead
    cases part <;> exact (Option.some.inj hHead).symm

theorem scanFrom_parts (parts : List (Part × Filling)) (before : List Char) :
    scanFrom before.length (charsOfParts parts) = (declaredIn before parts).map placed := by
  induction parts generalizing before with
  | nil =>
    rw [scanFrom, charsOfParts, List.flatMap_nil, maskComments, mask_nil, declarationsFrom_nil]
    rfl
  | cons part parts ih =>
    obtain ⟨part, filling⟩ := part
    rw [charsOfParts_cons]
    cases part with
    | comment remark =>
      rw [Part.chars, scanFrom_comment, scanFrom_filling filling (head?_charsOfParts parts),
        ← List.length_append, ← List.length_append, ih, declaredIn]
    | declaration written =>
      rw [Part.chars, scanFrom_declaration, scanFrom_filling filling (head?_charsOfParts parts),
        ← List.length_append, ← List.length_append, ih, declaredIn, List.map_cons, placed]

theorem Source.declarations_chars (source : Source) :
    declarations source.chars = source.declared.map placed := by
  have hScan := scanFrom_filling source.opening (head?_charsOfParts source.parts) 0
  rw [Nat.zero_add, scanFrom_parts] at hScan
  exact hScan

end DtdConformance.Dtd
