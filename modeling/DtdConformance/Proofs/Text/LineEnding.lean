import DtdConformance.Text.LineEnding

/-! # Other line endings for the same text

Where a text has a line feed, a file may have a line feed, a carriage return or both. A return alone
cannot stand right before a line feed of its own, since the two would be one line ending. What is
read from such a file is the text again.
-/
namespace DtdConformance.Text
set_option autoImplicit false

/-- The second text is the first with the line endings of a file. -/
inductive Rendition : List Char → List Char → Prop
  | nil : Rendition [] []
  | char {c : Char} {cs ws : List Char} (h : c ≠ '\n') (tail : Rendition cs ws) :
      Rendition (c :: cs) (c :: ws)
  | feed {cs ws : List Char} (tail : Rendition cs ws) : Rendition ('\n' :: cs) ('\n' :: ws)
  | both {cs ws : List Char} (tail : Rendition cs ws) :
      Rendition ('\n' :: cs) ('\r' :: '\n' :: ws)
  | carriageReturn {cs ws : List Char} (h : ws.head? ≠ some '\n') (tail : Rendition cs ws) :
      Rendition ('\n' :: cs) ('\r' :: ws)

/-- A file may put one byte order mark in front. -/
def MarkedRendition (cs file : List Char) : Prop :=
  ∃ ws, Rendition cs ws ∧ (file = ws ∨ file = byteOrderMark :: ws)

theorem normalizeLineEndings_cons {c : Char} (h : c ≠ '\r') (cs : List Char) :
    normalizeLineEndings (c :: cs) = c :: normalizeLineEndings cs := by
  rw [normalizeLineEndings, if_neg h]
  intro _ hReturn
  exact absurd hReturn h

theorem normalizeLineEndings_return {cs : List Char} (h : cs.head? ≠ some '\n') :
    normalizeLineEndings ('\r' :: cs) = '\n' :: normalizeLineEndings cs := by
  rw [normalizeLineEndings, if_pos rfl]
  rintro rest - rfl
  exact h rfl

theorem rendition_normalizeLineEndings (ws : List Char) :
    Rendition (normalizeLineEndings ws) ws := by
  fun_induction normalizeLineEndings ws with
  | case1 => exact .nil
  | case2 ws ih => exact .both ih
  | case3 c ws hNot ih =>
    by_cases hReturn : c = '\r'
    · subst hReturn
      apply Rendition.carriageReturn _ ih
      intro hFeed
      obtain ⟨rest, rfl⟩ := List.head?_eq_some_iff.mp hFeed
      exact hNot rest rfl rfl
    · rw [if_neg hReturn]
      by_cases hFeed : c = '\n'
      · subst hFeed
        exact .feed ih
      · exact .char hFeed ih

theorem normalizeLineEndings_of_rendition {cs ws : List Char} (h : Rendition cs ws)
    (hReturn : '\r' ∉ cs) : normalizeLineEndings ws = cs := by
  induction h with
  | nil => rfl
  | char _ _ ih =>
    obtain ⟨hHead, hTail⟩ := List.ne_and_not_mem_of_not_mem_cons hReturn
    rw [normalizeLineEndings_cons hHead.symm, ih hTail]
  | feed _ ih =>
    rw [normalizeLineEndings_cons (by decide), ih (List.not_mem_of_not_mem_cons hReturn)]
  | both _ ih => rw [normalizeLineEndings, ih (List.not_mem_of_not_mem_cons hReturn)]
  | carriageReturn hHead _ ih =>
    rw [normalizeLineEndings_return hHead, ih (List.not_mem_of_not_mem_cons hReturn)]

theorem rendition_iff {cs ws : List Char} (h : '\r' ∉ cs) :
    Rendition cs ws ↔ normalizeLineEndings ws = cs := by
  constructor
  · intro hRendition
    exact normalizeLineEndings_of_rendition hRendition h
  · rintro rfl
    exact rendition_normalizeLineEndings ws

theorem rendition_self (cs : List Char) : Rendition cs cs := by
  induction cs with
  | nil => exact .nil
  | cons c cs ih =>
    by_cases hFeed : c = '\n'
    · subst hFeed
      exact .feed ih
    · exact .char hFeed ih

theorem markedRendition_self (cs : List Char) : MarkedRendition cs cs :=
  ⟨cs, rendition_self cs, .inl rfl⟩

theorem normalizeLineEndings_of_not_mem {cs : List Char} (h : '\r' ∉ cs) :
    normalizeLineEndings cs = cs :=
  normalizeLineEndings_of_rendition (rendition_self cs) h

theorem stripByteOrderMark_of_head? {cs : List Char} (h : cs.head? ≠ some byteOrderMark) :
    stripByteOrderMark cs = cs := by
  cases cs with
  | nil => rfl
  | cons c cs => exact if_neg fun hMark => h (congrArg some hMark)

theorem stripByteOrderMark_normalizeLineEndings {cs file : List Char} (h : MarkedRendition cs file)
    (hReturn : '\r' ∉ cs) (hMark : cs.head? ≠ some byteOrderMark) :
    stripByteOrderMark (normalizeLineEndings file) = cs := by
  obtain ⟨ws, hRendition, rfl | rfl⟩ := h
  · rw [normalizeLineEndings_of_rendition hRendition hReturn, stripByteOrderMark_of_head? hMark]
  · rw [normalizeLineEndings_cons (by decide), normalizeLineEndings_of_rendition hRendition hReturn]
    simp only [stripByteOrderMark, if_true]

end DtdConformance.Text
