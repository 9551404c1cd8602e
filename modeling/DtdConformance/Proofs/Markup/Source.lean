import DtdConformance.Document.Tree
import DtdConformance.Proofs.Markup.Scan

/-! # Written documents

Documents as they are written down, with all that may stand between two tags. What a piece may hold
is part of its type: character data and attributes have no less-than sign, and a block has no
terminator inside. The elements of a document carry the text before their start tags as labels.
-/
namespace DtdConformance.Markup
set_option autoImplicit false

open Document Text

structure Space where
  chars : List Char
  blank : hasText chars = false

theorem Space.not_mem_chars (gap : Space) {c : Char} (h : isBlank c = false) : c ∉ gap.chars :=
  not_mem_of_blank ((hasText_eq_false_iff gap.chars).mp gap.blank) h

structure CharacterData where
  chars : List Char
  unmarked : '<' ∉ chars

structure Block where
  kind : BlockKind
  body : List Char
  unclosed : ¬ kind.terminator <:+: body

/-- The attributes are either absent or set off by a blank. They may hold line feeds and
greater-than signs. -/
structure StartTag where
  name : List Char
  attributes : List Char
  isName : IsName name
  separated : attributes.head?.all isBlank = true
  unmarked : '<' ∉ attributes

/-- The rest of the content of an element as it is written. -/
inductive Source where
  | done
  | text (data : CharacterData) (rest : Source)
  | block (literal : Block) (rest : Source)
  | empty (tag : StartTag) (rest : Source)
  | element (tag : StartTag) (inner : Source) (gap : Space) (rest : Source)

/-- What may stand before and after the root. -/
inductive Margin where
  | space (gap : Space)
  | block (literal : Block)
  | doctype (body : CharacterData)

/-- A root without content is written as an empty element. -/
structure Written where
  prolog : List Margin
  root : StartTag
  content? : Option (Source × Space)
  epilog : List Margin

namespace Block

def chars (block : Block) : List Char :=
  block.kind.opener ++ block.body ++ block.kind.terminator

/-- A comment does not hold two hyphens in a row, so it holds no terminator. -/
def ofComment (body : List Char) (hBody : ¬ ['-', '-'] <:+: body) : Block where
  kind := .comment
  body := body
  unclosed := fun hIn => hBody ((List.prefix_append ['-', '-'] ['>']).isInfix.trans hIn)

end Block

namespace StartTag

def opening (tag : StartTag) : List Char := '<' :: (tag.name ++ (tag.attributes ++ ['>']))

def emptied (tag : StartTag) : List Char := '<' :: (tag.name ++ (tag.attributes ++ ['/', '>']))

def closing (tag : StartTag) (gap : Space) : List Char :=
  '<' :: '/' :: (tag.name ++ (gap.chars ++ ['>']))

end StartTag

namespace Source

def chars : Source → List Char
  | done => []
  | text data rest => data.chars ++ rest.chars
  | block literal rest => literal.chars ++ rest.chars
  | empty tag rest => tag.emptied ++ rest.chars
  | element tag inner gap rest =>
    tag.opening ++ (inner.chars ++ (tag.closing gap ++ rest.chars))

/-- The elements, each labelled with the text before its start tag. -/
def elements (before : List Char) : Source → Content (List Char)
  | done => .done
  | text data rest => rest.elements (before ++ data.chars)
  | block literal rest => rest.elements (before ++ literal.chars)
  | empty tag rest =>
    .element (String.ofList tag.name) before .done (rest.elements (before ++ tag.emptied))
  | element tag inner gap rest =>
    .element (String.ofList tag.name) before (inner.elements (before ++ tag.opening))
      (rest.elements (before ++ tag.opening ++ inner.chars ++ tag.closing gap))

end Source

def Margin.chars : Margin → List Char
  | space gap => gap.chars
  | block literal => literal.chars
  | doctype body => ['<', '!', 'D', 'O', 'C', 'T', 'Y', 'P', 'E'] ++ (body.chars ++ ['>'])

namespace Written

def before (document : Written) : List Char := document.prolog.flatMap Margin.chars

def source (document : Written) : Source :=
  match document.content? with
  | none => .empty document.root .done
  | some (inner, gap) => .element document.root inner gap .done

def chars (document : Written) : List Char :=
  document.before ++ (document.source.chars ++ document.epilog.flatMap Margin.chars)

def tree (document : Written) : Element (List Char) where
  name := String.ofList document.root.name
  label := document.before
  content :=
    match document.content? with
    | none => .done
    | some (inner, _) => inner.elements (document.before ++ document.root.opening)

theorem preorder_tree (document : Written) :
    document.tree.preorder = (document.source.elements document.before).preorder := by
  obtain ⟨prolog, root, content?, epilog⟩ := document
  cases content? with
  | none => rfl
  | some content =>
    obtain ⟨inner, gap⟩ := content
    exact congrArg (List.cons _) (List.append_nil _).symm

end Written

/-! ## Places of start tags -/

theorem opening_isPrefix {source : Source} {before : List Char} {e : Element (List Char)}
    (h : e ∈ (source.elements before).preorder) :
    e.label ++ '<' :: e.name.toList <+: before ++ source.chars := by
  induction source generalizing before with
  | done => cases h
  | text data rest ih =>
    rw [Source.chars, ← List.append_assoc]
    exact ih h
  | block literal rest ih =>
    rw [Source.chars, ← List.append_assoc]
    exact ih h
  | empty tag rest ih =>
    rcases List.mem_cons.mp h with rfl | hRest
    · simp [Source.chars, StartTag.emptied]
    · rw [Source.chars, ← List.append_assoc]
      exact ih hRest
  | element tag inner gap rest ihInner ihRest =>
    rcases List.mem_cons.mp h with rfl | hBelow
    · simp [Source.chars, StartTag.opening]
    · rcases List.mem_append.mp hBelow with hInner | hRest
      · have hPrefix := (ihInner hInner).trans
          (List.prefix_append _ (tag.closing gap ++ rest.chars))
        rwa [List.append_assoc, List.append_assoc] at hPrefix
      · have hPrefix := ihRest hRest
        rwa [List.append_assoc, List.append_assoc, List.append_assoc] at hPrefix

theorem Written.opening_isPrefix_of_mem_tree {document : Written} {e : Element (List Char)}
    (h : e ∈ document.tree.preorder) : e.label ++ '<' :: e.name.toList <+: document.chars := by
  rw [document.preorder_tree] at h
  rw [Written.chars, ← List.append_assoc]
  exact (opening_isPrefix h).trans (List.prefix_append _ _)

/-! ## The scan of a document -/

def sighted (e : Element (List Char)) : List Char × Nat := (e.name.toList, e.label.length)

theorem scanFrom_opened (tag : StartTag) {mark : Char} {ending : List Char}
    (hMark : isNameChar mark = false) (hEnding : '<' ∉ mark :: ending)
    (hClose : '>' ∈ mark :: ending) (offset : Nat) (cs : List Char) :
    let text := '<' :: (tag.name ++ (tag.attributes ++ mark :: ending))
    scanFrom offset (text ++ cs) = (tag.name, offset) :: scanFrom (offset + text.length) cs := by
  intro text
  have hOpen : '<' ∉ tag.attributes ++ mark :: ending := by
    rw [List.mem_append, not_or]
    exact ⟨tag.unmarked, hEnding⟩
  have hHead : ∀ c ∈ (tag.attributes ++ mark :: ending).head?, isNameChar c = false := by
    intro c hMem
    rw [List.head?_append] at hMem
    rcases Option.or_eq_some_iff.mp hMem with hAttribute | ⟨_, hEnd⟩
    · have hBlank := tag.separated
      rw [hAttribute] at hBlank
      exact isNameChar_eq_false_of_isBlank hBlank
    · cases hEnd
      exact hMark
  rw [List.cons_append, List.append_assoc]
  exact scanFrom_opening tag.isName hHead (List.mem_append_right _ hClose) hOpen offset cs

theorem scanFrom_closing (tag : StartTag) (gap : Space) (offset : Nat) (cs : List Char) :
    scanFrom offset (tag.closing gap ++ cs) =
      scanFrom (offset + (tag.closing gap).length) cs := by
  have hText : '<' ∉ '/' :: (tag.name ++ (gap.chars ++ ['>'])) := by
    simp only [List.mem_cons, List.mem_append, not_or, List.not_mem_nil]
    exact ⟨by decide, not_mem_of_nameChar tag.isName.2 (by decide),
      gap.not_mem_chars (by decide), by decide, not_false⟩
  refine scanFrom_nameless (by decide) hText cs (fun kind hOpener => ?_) offset
  obtain ⟨_, d, hMem, hMark⟩ := opener_prefix_cons hOpener
  cases hMem
  rcases hMark with hMark | hMark <;> exact absurd hMark (by decide)

/-- The scanner finds the start tag of every element and nothing else, whatever follows. -/
theorem scanFrom_source (source : Source) (before cs : List Char) :
    scanFrom before.length (source.chars ++ cs) =
      (source.elements before).preorder.map sighted ++
        scanFrom (before ++ source.chars).length cs := by
  induction source generalizing before cs with
  | done =>
    rw [Source.chars, List.append_nil]
    rfl
  | text data rest ih =>
    rw [Source.chars, List.append_assoc, scanFrom_text data.unmarked, ← List.length_append, ih,
      List.append_assoc]
    rfl
  | block literal rest ih =>
    rw [Source.chars, List.append_assoc, Block.chars, scanFrom_block literal.unclosed,
      ← List.length_append, ← Block.chars, ih, List.append_assoc]
    rfl
  | empty tag rest ih =>
    rw [Source.chars, List.append_assoc, StartTag.emptied, scanFrom_opened tag (by decide)
      (by decide) (by decide), ← List.length_append, ← StartTag.emptied, ih, List.append_assoc]
    simp only [Source.elements, Content.preorder, List.map_cons, List.nil_append, sighted,
      String.toList_ofList, List.cons_append]
  | element tag inner gap rest ihInner ihRest =>
    rw [Source.chars, List.append_assoc, StartTag.opening, scanFrom_opened tag (by decide)
      (by decide) (by decide), ← List.length_append, ← StartTag.opening, List.append_assoc,
      ihInner, List.append_assoc (tag.closing gap), scanFrom_closing, ← List.length_append, ihRest]
    simp only [Source.elements, Content.preorder, List.map_cons, List.map_append, sighted,
      String.toList_ofList, List.cons_append, List.append_assoc]

theorem scanFrom_margin (margin : Margin) (offset : Nat) (cs : List Char) :
    scanFrom offset (margin.chars ++ cs) = scanFrom (offset + margin.chars.length) cs := by
  cases margin with
  | space gap => exact scanFrom_text (gap.not_mem_chars (by decide)) offset cs
  | block literal => exact scanFrom_block literal.unclosed offset cs
  | doctype body =>
    have hText : '<' ∉ ['!', 'D', 'O', 'C', 'T', 'Y', 'P', 'E'] ++ (body.chars ++ ['>']) := by
      simp only [List.mem_append, not_or]
      exact ⟨by decide, body.unmarked, by decide⟩
    refine scanFrom_nameless (by decide) hText cs (fun kind hOpener => ?_) offset
    obtain ⟨rest, hRest⟩ := hOpener
    cases kind <;> simp [BlockKind.opener] at hRest

theorem scanFrom_margins (margins : List Margin) (offset : Nat) (cs : List Char) :
    scanFrom offset (margins.flatMap Margin.chars ++ cs) =
      scanFrom (offset + (margins.flatMap Margin.chars).length) cs := by
  induction margins generalizing offset with
  | nil => rfl
  | cons margin margins ih =>
    rw [List.flatMap_cons, List.append_assoc, scanFrom_margin, ih, List.length_append,
      Nat.add_assoc]

theorem Written.scanFrom_chars (document : Written) :
    scanFrom 0 document.chars = document.tree.preorder.map sighted := by
  rw [Written.chars, Written.before, scanFrom_margins, Nat.zero_add, scanFrom_source,
    ← List.append_nil (document.epilog.flatMap Margin.chars), scanFrom_margins, scanFrom_nil,
    List.append_nil, document.preorder_tree]
  rfl

end DtdConformance.Markup
