import DtdConformance.Proofs.Dtd.Classification
import DtdConformance.Proofs.Text.Trim

/-! # Comments inside a content model

A comment on one line does not count, wherever it stands in a content model. A comment that goes on
to another line is none: with its hyphens it stays part of the content model, and these can neither
be part of a word for empty or unconstrained content nor stand beside the mark for text alone.
-/
namespace DtdConformance.Dtd
set_option autoImplicit false

open Text

/-! ## Stripping -/

theorem dropComment?_eq_none {cs : List Char} (h : ¬ hyphens <+: cs) : dropComment? cs = none := by
  rw [dropComment?, (after?_eq_none_iff _ _).mpr h, Option.bind_none]

theorem dropComment?_hyphens_append (cs : List Char) :
    dropComment? (hyphens ++ cs) = afterComment? cs := by
  rw [dropComment?, (after?_eq_some_iff _ _ _).mpr rfl, Option.bind_some]

theorem stripComments_nil : stripComments [] = [] := by
  rw [stripComments]
  split
  · next hSome => cases hSome
  · rfl

theorem stripComments_of_dropComment? {cs rest : List Char} (h : dropComment? cs = some rest) :
    stripComments cs = stripComments rest := by
  rw [stripComments]
  split
  · next hSome =>
    cases hSome.symm.trans h
    rfl
  · next hNone => cases hNone.symm.trans h

theorem stripComments_cons {c : Char} {cs : List Char} (h : dropComment? (c :: cs) = none) :
    stripComments (c :: cs) = c :: stripComments cs := by
  rw [stripComments]
  split
  · next hSome => cases hSome.symm.trans h
  · rfl

/-- A text without double hyphens is kept. -/
theorem stripComments_of_not_isInfix {cs : List Char} (h : ¬ hyphens <:+: cs) :
    stripComments cs = cs := by
  induction cs with
  | nil => exact stripComments_nil
  | cons c cs ih =>
    have hHere : ¬ hyphens <+: c :: cs := fun hPrefix => h hPrefix.isInfix
    have hLater : ¬ hyphens <:+: cs := fun hIn => h (hIn.trans (List.suffix_cons c cs).isInfix)
    rw [stripComments_cons (dropComment?_eq_none hHere), ih hLater]

theorem not_isInfix_hyphens {cs : List Char} (h : '-' ∉ cs) : ¬ hyphens <:+: cs :=
  fun hIn => h (hIn.subset List.mem_cons_self)

theorem not_isPrefix_of_ne {c : Char} (h : c ≠ '-') (cs : List Char) : ¬ hyphens <+: c :: cs :=
  fun hPrefix => h (List.cons_prefix_cons.mp hPrefix).1.symm

theorem stripComments_append_of_not_mem {text : List Char} (h : '-' ∉ text) (cs : List Char) :
    stripComments (text ++ cs) = text ++ stripComments cs := by
  induction text with
  | nil => rfl
  | cons c text ih =>
    rw [List.mem_cons, not_or] at h
    rw [List.cons_append, stripComments_cons (dropComment?_eq_none (not_isPrefix_of_ne
      (Ne.symm h.1) _)), ih h.2, List.cons_append]

/-! ## One comment -/

section

variable {comment : List Char}

theorem afterComment?_cons {c : Char} (h : c ≠ '-') (cs : List Char) :
    afterComment? (c :: cs) = if c = '\n' then none else afterComment? cs := by
  rw [afterComment?, (after?_eq_none_iff _ _).mpr (not_isPrefix_of_ne h cs)]

theorem afterComment?_append (hComment : '-' ∉ comment) (hLine : '\n' ∉ comment)
    (rest : List Char) : afterComment? (comment ++ (hyphens ++ rest)) = some rest := by
  induction comment with
  | nil => rfl
  | cons c comment ih =>
    rw [List.mem_cons, not_or] at hComment hLine
    rw [List.cons_append, afterComment?_cons (Ne.symm hComment.1), if_neg (Ne.symm hLine.1),
      ih hComment.2 hLine.2]

/-- A comment whose line has no hyphen is not closed. -/
theorem afterComment?_eq_none {cs : List Char} (h : '-' ∉ cs.takeWhile (fun c => c != '\n')) :
    afterComment? cs = none := by
  induction cs with
  | nil => rfl
  | cons c cs ih =>
    by_cases hFeed : c = '\n'
    · subst hFeed
      rw [afterComment?_cons (by decide), if_pos rfl]
    · rw [List.takeWhile_cons_of_pos (by simpa using hFeed), List.mem_cons, not_or] at h
      rw [afterComment?_cons (Ne.symm h.1), if_neg hFeed, ih h.2]

theorem stripComments_comment (hComment : '-' ∉ comment) (hLine : '\n' ∉ comment)
    (rest : List Char) :
    stripComments (hyphens ++ (comment ++ (hyphens ++ rest))) = stripComments rest := by
  apply stripComments_of_dropComment?
  rw [dropComment?_hyphens_append, afterComment?_append hComment hLine]

/-- Hyphens that open nothing are kept. -/
theorem stripComments_hyphens_append {cs : List Char} (hHead : ∀ c ∈ cs.head?, c ≠ '-')
    (hOpen : '-' ∉ cs.takeWhile (fun c => c != '\n')) :
    stripComments (hyphens ++ cs) = hyphens ++ stripComments cs := by
  have hFirst : dropComment? ('-' :: '-' :: cs) = none :=
    (dropComment?_hyphens_append cs).trans (afterComment?_eq_none hOpen)
  have hSecond : ¬ hyphens <+: '-' :: cs := by
    rintro ⟨rest, hRest⟩
    obtain ⟨-, rfl⟩ := List.cons.inj hRest
    exact hHead '-' rfl rfl
  rw [hyphens, List.cons_append, List.cons_append, List.nil_append, stripComments_cons hFirst,
    stripComments_cons (dropComment?_eq_none hSecond)]
  rfl

/-- Neither the hyphens before a line feed nor those after it have any on their line to match. -/
theorem stripComments_comment_of_feed (hComment : '-' ∉ comment) (hFeed : '\n' ∈ comment)
    {rest : List Char} (hRest : '-' ∉ rest) :
    stripComments (hyphens ++ (comment ++ (hyphens ++ rest))) =
      hyphens ++ (comment ++ (hyphens ++ rest)) := by
  have hHead : ∀ c ∈ (comment ++ (hyphens ++ rest)).head?, c ≠ '-' :=
    head?_append_of_all (List.ne_nil_of_mem hFeed) fun c hMem hEq => hComment (hEq ▸ hMem)
  have hOpen : '-' ∉ (comment ++ (hyphens ++ rest)).takeWhile (fun c => c != '\n') := by
    obtain ⟨front, back, rfl⟩ := List.append_of_mem hFeed
    rw [List.append_assoc, takeWhile_append_of_head? (by simp)]
    intro hMem
    exact hComment (List.mem_append_left _ ((List.takeWhile_sublist _).mem hMem))
  have hRestHead : ∀ c ∈ rest.head?, c ≠ '-' :=
    fun c hHere hEq => hRest (hEq ▸ List.mem_of_mem_head? hHere)
  have hRestOpen : '-' ∉ rest.takeWhile (fun c => c != '\n') :=
    fun hMem => hRest ((List.takeWhile_sublist _).mem hMem)
  have hKept : stripComments rest = rest :=
    stripComments_of_not_isInfix (not_isInfix_hyphens hRest)
  rw [stripComments_hyphens_append hHead hOpen, stripComments_append_of_not_mem hComment,
    stripComments_hyphens_append hRestHead hRestOpen, hKept]

end

/-! ## Commented content models -/

/-- A content model with a comment put between two parts of it. -/
def commented (before comment after : List Char) : List Char :=
  before ++ (hyphens ++ (comment ++ (hyphens ++ after)))

section

variable {before comment after : List Char}

theorem trim_commented (before comment after : List Char) :
    trim (commented before comment after) =
      commented (trimLeft before) comment (trimRight after) := by
  have hAround := trim_around (by decide : isBlank '-' = false) (by decide : isBlank '-' = false)
    before ('-' :: (comment ++ ['-'])) after
  simpa [commented, hyphens] using hAround

theorem not_mem_trimLeft {c : Char} {cs : List Char} (h : c ∉ cs) : c ∉ trimLeft cs :=
  fun hMem => h ((List.dropWhile_sublist isBlank).mem hMem)

theorem not_mem_trimRight {c : Char} {cs : List Char} (h : c ∉ cs) : c ∉ trimRight cs := by
  intro hMem
  have hReverse := (List.dropWhile_sublist isBlank).mem (List.mem_reverse.mp hMem)
  exact h (List.mem_reverse.mp hReverse)

theorem bareSpec_of_not_isInfix {spec : List Char} (h : ¬ hyphens <:+: spec) :
    bareSpec spec = trim spec := by
  have hTrimmed : ¬ hyphens <:+: trim spec := fun hIn => h (hIn.trans (trim_isInfix spec))
  rw [bareSpec, stripComments_of_not_isInfix hTrimmed, trim_trim]

theorem bareSpec_commented (hBefore : '-' ∉ before) (hComment : '-' ∉ comment)
    (hAfter : '-' ∉ after) (hLine : '\n' ∉ comment) :
    bareSpec (commented before comment after) = bareSpec (before ++ after) := by
  have hNone : '-' ∉ before ++ after := by
    rw [List.mem_append, not_or]
    exact ⟨hBefore, hAfter⟩
  have hKept : stripComments (trimRight after) = trimRight after :=
    stripComments_of_not_isInfix (not_isInfix_hyphens (not_mem_trimRight hAfter))
  rw [bareSpec_of_not_isInfix (not_isInfix_hyphens hNone), bareSpec, trim_commented, commented,
    stripComments_append_of_not_mem (not_mem_trimLeft hBefore),
    stripComments_comment hComment hLine, hKept, trim_trimLeft_append_trimRight]

theorem bareSpec_commented_of_feed (hBefore : '-' ∉ before) (hComment : '-' ∉ comment)
    (hAfter : '-' ∉ after) (hFeed : '\n' ∈ comment) :
    bareSpec (commented before comment after) = trim (commented before comment after) := by
  have hKept : stripComments (trim (commented before comment after)) =
      trim (commented before comment after) := by
    rw [trim_commented, commented, stripComments_append_of_not_mem (not_mem_trimLeft hBefore),
      stripComments_comment_of_feed hComment hFeed (not_mem_trimRight hAfter)]
  rw [bareSpec, hKept, trim_trim]

/-- A hyphen belongs to none of the short content models. -/
theorem define_of_hyphen {spec : List Char} (h : '-' ∈ bareSpec spec) (name : String) (line : Int) :
    (define name spec line).2.isSome = true ∨
      (∃ allowed, (define name spec line).1.rule = .mixed allowed) ∨
      ∃ automaton, (define name spec line).1.rule = .children automaton := by
  rcases define_cases name spec line with ⟨-, hRule⟩ | ⟨fault, hFault, -⟩
  · have hMem : '-' ∈ removeBlanks (bareSpec spec) :=
      (mem_removeBlanks_iff _ _).mpr ⟨h, by decide⟩
    have hStands := standsFor_ruleOf (bareSpec spec)
    rw [hRule] at hStands
    generalize hOutcome :
      (.ok (define name spec line).1.rule : Except ContentModel.Fault ContentRule) = outcome
      at hStands
    cases hStands with
    | empty hWord =>
      rw [hWord] at hMem
      exact absurd hMem (by decide)
    | any hWord =>
      rw [hWord] at hMem
      exact absurd hMem (by decide)
    | text hMark =>
      rw [hMark] at hMem
      exact absurd hMem (by decide)
    | mixed => exact .inr (.inl ⟨_, Except.ok.inj hOutcome⟩)
    | children =>
      cases hCompile : ContentModel.compile (bareSpec spec) with
      | error fault =>
        rw [hCompile] at hOutcome
        cases hOutcome
      | ok automaton =>
        rw [hCompile] at hOutcome
        exact .inr (.inr ⟨automaton, Except.ok.inj hOutcome⟩)
  · exact .inl (by rw [hFault]; rfl)

/-- A comment without hyphens, put anywhere into a content model without hyphens, does not show in
the definition exactly when it stays on one line. A comment with a line feed stays part of the
content model as it is written, and the element is then mixed, has ordered children or is left
unconstrained by a fault, whatever it was declared to be. -/
theorem define_commented (name : String) (line : Int) (before comment after : List Char)
    (hBefore : '-' ∉ before) (hComment : '-' ∉ comment) (hAfter : '-' ∉ after) :
    let found := define name (commented before comment after) line
    (found = define name (before ++ after) line ↔ '\n' ∉ comment) ∧
      ('\n' ∈ comment →
        found.1.spec = String.ofList (trim (commented before comment after)) ∧
          (found.2.isSome = true ∨ (∃ allowed, found.1.rule = .mixed allowed) ∨
            ∃ automaton, found.1.rule = .children automaton)) := by
  intro found
  have hHyphen (hFeed : '\n' ∈ comment) : '-' ∈ bareSpec (commented before comment after) := by
    rw [bareSpec_commented_of_feed hBefore hComment hAfter hFeed, trim_commented]
    simp [commented, hyphens]
  refine ⟨⟨fun hSame hFeed => ?_, fun hLine => ?_⟩, fun hFeed => ⟨?_, ?_⟩⟩
  · have hNone : '-' ∉ before ++ after := by
      rw [List.mem_append, not_or]
      exact ⟨hBefore, hAfter⟩
    have hSpec := congrArg (fun found => found.1.spec) hSame
    simp only [found, spec_define, String.ofList_inj] at hSpec
    have hMem := hHyphen hFeed
    rw [hSpec, bareSpec_of_not_isInfix (not_isInfix_hyphens hNone)] at hMem
    exact hNone ((trim_isInfix _).subset hMem)
  · simp only [found, define, bareSpec_commented hBefore hComment hAfter hLine]
  · rw [spec_define, bareSpec_commented_of_feed hBefore hComment hAfter hFeed]
  · exact define_of_hyphen (hHyphen hFeed) name line

/-- A comment in front of the last name of a content model does not show. -/
theorem define_commented_of_note :
    '-' ∉ "(a,".toList ∧ '-' ∉ " not yet ".toList ∧ '-' ∉ "b)".toList ∧
      '\n' ∉ " not yet ".toList ∧
      define "e" "(a,-- not yet --b)".toList 3 = define "e" "(a,b)".toList 3 := by
  have hBefore : '-' ∉ "(a,".toList := by decide
  have hComment : '-' ∉ " not yet ".toList := by decide
  have hAfter : '-' ∉ "b)".toList := by decide
  have hLine : '\n' ∉ " not yet ".toList := by decide
  have hSame := (define_commented "e" 3 _ _ _ hBefore hComment hAfter).1.mpr hLine
  exact ⟨hBefore, hComment, hAfter, hLine, hSame⟩

/-- An element that is declared empty with a comment over two lines is given children instead, and
nothing is reported. -/
theorem comment_read_as_name_of_two_lines :
    '-' ∉ "EMPTY".toList ∧ '-' ∉ "never\nfilled".toList ∧
      (define "e" "EMPTY".toList 1).1.rule = .empty ∧
      (define "e" (commented "EMPTY".toList "never\nfilled".toList []) 1).1.rule.kind = "CHILDREN" ∧
      (define "e" (commented "EMPTY".toList "never\nfilled".toList []) 1).2 = none := by
  decide +kernel

end

end DtdConformance.Dtd
