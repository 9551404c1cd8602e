import Mathlib.Data.List.Basic
import Mathlib.Data.Nat.Find
import DtdConformance.Text.Search

/-! # The first place of a mark

A text is cut at the first place at which the mark stands. A terminator that does not overlap itself
is found where the text before it ends. An opening that does not stand in a text does not begin
there either when what follows cannot go on with it. A text that is cut at a separator gives back
the pieces that it was put together from. A list without its repetitions has each member at its
first place.
-/
namespace DtdConformance.Text
set_option autoImplicit false

theorem after?_eq_none_iff (start cs : List Char) : after? start cs = none ↔ ¬ start <+: cs := by
  rw [Option.eq_none_iff_forall_ne_some]
  constructor
  · rintro hNone ⟨rest, rfl⟩
    exact hNone rest ((after?_eq_some_iff _ _ _).mpr rfl)
  · intro hPrefix rest hSome
    exact hPrefix ⟨rest, ((after?_eq_some_iff _ _ _).mp hSome).symm⟩

theorem not_isPrefix_append {first : Char} {others text rest : List Char}
    (hText : ¬ first :: others <:+: text) (hRest : ∀ c ∈ rest.head?, c ∉ others)
    (hNonempty : text ≠ []) : ¬ first :: others <+: text ++ rest := by
  intro hPrefix
  rcases List.prefix_or_prefix_of_prefix hPrefix (List.prefix_append text rest) with hIn | hOver
  · exact hText hIn.isInfix
  · obtain ⟨tail, hTail⟩ := hOver
    cases tail with
    | nil =>
      rw [List.append_nil] at hTail
      exact hText (hTail ▸ List.infix_rfl)
    | cons d tail =>
      rw [← hTail, List.prefix_append_right_inj] at hPrefix
      obtain ⟨more, hMore⟩ := hPrefix
      obtain ⟨c, front, rfl⟩ := List.exists_cons_of_ne_nil hNonempty
      obtain ⟨_, hOthers⟩ := List.cons.inj hTail
      refine hRest d ?_ (hOthers ▸ by simp)
      rw [← hMore]
      rfl

/-- A mark cannot reach from one text into the next when the next one begins with another
character. -/
theorem not_isInfix_append {mark text rest : List Char} (hText : ¬ mark <:+: text)
    (hRest : ¬ mark <:+: rest) (hHead : ∀ c ∈ rest.head?, c ∉ mark) : ¬ mark <:+: text ++ rest := by
  rw [List.infix_append_iff]
  rintro (hIn | hIn | ⟨front, back, rfl, hFront, hBack⟩)
  · exact hText hIn
  · exact hRest hIn
  · cases back with
    | nil =>
      rw [List.append_nil] at hText
      exact hText hFront.isInfix
    | cons c back =>
      obtain ⟨tail, rfl⟩ := hBack
      exact hHead c rfl (by simp)

/-- The first place at or behind an offset at which the mark stands. -/
structure FirstFrom (mark cs : List Char) (offset place : Nat) : Prop where
  behind : offset ≤ place
  stands : mark <+: cs.drop place
  least : ∀ other, offset ≤ other → mark <+: cs.drop other → place ≤ other

theorem FirstFrom.unique {mark cs : List Char} {offset place other : Nat}
    (h : FirstFrom mark cs offset place) (hOther : FirstFrom mark cs offset other) :
    other = place :=
  Nat.le_antisymm (hOther.least place h.behind h.stands) (h.least other hOther.behind hOther.stands)

theorem exists_firstFrom {mark cs : List Char} {offset place : Nat} (hBehind : offset ≤ place)
    (hStands : mark <+: cs.drop place) : ∃ first, FirstFrom mark cs offset first := by
  classical
  have hSome : ∃ place, offset ≤ place ∧ mark <+: cs.drop place := ⟨place, hBehind, hStands⟩
  exact ⟨Nat.find hSome, (Nat.find_spec hSome).1, (Nat.find_spec hSome).2,
    fun other hOther hMark => Nat.find_min' hSome ⟨hOther, hMark⟩⟩

theorem firstFrom_append_iff (mark before cs : List Char) (offset place : Nat) :
    FirstFrom mark (before ++ cs) (before.length + offset) (before.length + place) ↔
      FirstFrom mark cs offset place := by
  constructor
  · intro h
    refine ⟨by have := h.behind; omega, ?_, fun other hOther hMark => ?_⟩
    · have hStands := h.stands
      rwa [List.drop_length_add_append] at hStands
    · have := h.least (before.length + other) (by omega) (by rwa [List.drop_length_add_append])
      omega
  · intro h
    refine ⟨by have := h.behind; omega, ?_, fun other hOther hMark => ?_⟩
    · rw [List.drop_length_add_append]
      exact h.stands
    · obtain ⟨rest, rfl⟩ := Nat.exists_eq_add_of_le (Nat.le_trans (Nat.le_add_right _ _) hOther)
      rw [List.drop_length_add_append] at hMark
      have := h.least rest (by omega) hMark
      omega

theorem singleton_isPrefix_drop_iff (c : Char) (cs : List Char) (place : Nat) :
    [c] <+: cs.drop place ↔ cs[place]? = some c := by
  rw [List.prefix_iff_getElem?]
  simp

theorem splitAt?_of_isPrefix {mark cs : List Char} (h : mark <+: cs) :
    ∃ rest, splitAt? mark cs = some ([], rest) := by
  obtain ⟨rest, hRest⟩ := h
  refine ⟨rest, ?_⟩
  unfold splitAt?
  rw [(after?_eq_some_iff mark cs rest).mpr hRest.symm]

theorem splitAt?_cons {mark : List Char} {c : Char} {cs : List Char} (h : ¬ mark <+: c :: cs) :
    splitAt? mark (c :: cs) =
      (splitAt? mark cs).map fun (before, rest) => (c :: before, rest) := by
  rw [splitAt?, (after?_eq_none_iff mark _).mpr h]

theorem not_isPrefix_of_splitAt? {mark cs : List Char} (h : splitAt? mark cs = none)
    (place : Nat) : ¬ mark <+: cs.drop place := by
  have hHere : ¬ mark <+: cs := by
    intro hMark
    obtain ⟨rest, hSome⟩ := splitAt?_of_isPrefix hMark
    cases h.symm.trans hSome
  induction cs generalizing place with
  | nil => rwa [List.drop_nil]
  | cons c cs ih =>
    rw [splitAt?_cons hHere, Option.map_eq_none_iff] at h
    cases place with
    | zero => exact hHere
    | succ place =>
      refine ih h place fun hMark => ?_
      obtain ⟨rest, hSome⟩ := splitAt?_of_isPrefix hMark
      cases h.symm.trans hSome

/-- A text is cut at the first place of the mark. -/
theorem firstFrom_of_splitAt? {mark cs before rest : List Char}
    (h : splitAt? mark cs = some (before, rest)) : FirstFrom mark cs 0 before.length := by
  refine ⟨Nat.zero_le _, ?_, fun other _ hMark => ?_⟩
  · rw [eq_append_of_splitAt? h, List.append_assoc, List.drop_left]
    exact List.prefix_append mark rest
  · induction cs generalizing before other with
    | nil =>
      obtain ⟨rest', hSome⟩ := splitAt?_of_isPrefix (List.drop_nil ▸ hMark)
      cases h.symm.trans hSome
      exact Nat.zero_le _
    | cons c cs ih =>
      by_cases hHere : mark <+: c :: cs
      · obtain ⟨rest', hSome⟩ := splitAt?_of_isPrefix hHere
        cases h.symm.trans hSome
        exact Nat.zero_le _
      · rw [splitAt?_cons hHere, Option.map_eq_some_iff] at h
        obtain ⟨⟨before, rest'⟩, hSplit, hEq⟩ := h
        cases hEq
        cases other with
        | zero => exact absurd hMark hHere
        | succ other => exact Nat.succ_le_succ (ih hSplit other (Nat.zero_le _) hMark)

section Terminator

variable {init body : List Char} {last : Char}

/-- A terminator whose last character stands in it once does not overlap itself. -/
theorem not_isPrefix_append_terminator (hLast : last ∉ init) (hBody : ¬ init ++ [last] <:+: body)
    (hNonempty : body ≠ []) (rest : List Char) :
    ¬ init ++ [last] <+: body ++ (init ++ [last] ++ rest) := by
  intro hPrefix
  rcases List.prefix_or_prefix_of_prefix hPrefix (List.prefix_append body _) with hIn | hOver
  · exact hBody hIn.isInfix
  · obtain ⟨tail, hTail⟩ := hOver
    rcases List.eq_nil_or_concat tail with rfl | ⟨front, d, rfl⟩
    · rw [List.append_nil] at hTail
      exact hBody (hTail ▸ List.infix_rfl)
    · rw [List.concat_eq_append, ← List.append_assoc] at hTail
      obtain ⟨hFront, hEnd⟩ := List.append_inj' hTail rfl
      cases hEnd
      have hInner : front ++ [last] <+: init ++ [last] ++ rest := by
        rw [← List.prefix_append_right_inj body, ← List.append_assoc, hTail]
        exact hPrefix
      have hShort : (front ++ [last]).length ≤ init.length := by
        have := List.length_pos_iff.mpr hNonempty
        rw [← hFront]
        simp only [List.length_append, List.length_singleton]
        omega
      have hBefore := List.prefix_of_prefix_length_le hInner
        ((List.prefix_append init [last]).trans (List.prefix_append _ rest)) hShort
      exact hLast (hBefore.subset (by simp))

theorem splitAt?_append (hLast : last ∉ init) (hBody : ¬ init ++ [last] <:+: body)
    (rest : List Char) :
    splitAt? (init ++ [last]) (body ++ (init ++ [last] ++ rest)) = some (body, rest) := by
  induction body with
  | nil =>
    unfold splitAt?
    rw [List.nil_append, (after?_eq_some_iff _ _ _).mpr rfl]
  | cons c body ih =>
    have hNot := not_isPrefix_append_terminator hLast hBody (List.cons_ne_nil c body) rest
    have hRest := ih (fun hIn => hBody (hIn.trans (List.suffix_cons c body).isInfix))
    rw [List.cons_append] at hNot ⊢
    rw [splitAt?_cons hNot, hRest, Option.map_some]

end Terminator

section Pieces

variable {separator : Char} {piece : List Char}

attribute [local simp] splitOn

theorem splitOn_of_not_mem (h : separator ∉ piece) : splitOn separator piece = [piece] := by
  induction piece with
  | nil => rfl
  | cons c piece ih =>
    rw [List.mem_cons, not_or] at h
    simp [Ne.symm h.1, ih h.2]

theorem splitOn_append (h : separator ∉ piece) (rest : List Char) :
    splitOn separator (piece ++ separator :: rest) = piece :: splitOn separator rest := by
  induction piece with
  | nil => simp
  | cons c piece ih =>
    rw [List.mem_cons, not_or] at h
    simp [Ne.symm h.1, ih h.2]

/-- Pieces that are written with a separator before each are found again. -/
theorem splitOn_append_flatMap (h : separator ∉ piece) {pieces : List (List Char)}
    (hPieces : ∀ other ∈ pieces, separator ∉ other) :
    splitOn separator (piece ++ pieces.flatMap (separator :: ·)) = piece :: pieces := by
  induction pieces generalizing piece with
  | nil => rw [List.flatMap_nil, List.append_nil, splitOn_of_not_mem h]
  | cons other pieces ih =>
    rw [List.forall_mem_cons] at hPieces
    rw [List.flatMap_cons, List.cons_append, splitOn_append h, ih hPieces.1 hPieces.2]

theorem splitOn_ne_nil (separator : Char) (cs : List Char) : splitOn separator cs ≠ [] := by
  unfold splitOn
  split
  · exact List.cons_ne_nil _ _
  · split
    · exact List.cons_ne_nil _ _
    · split <;> exact List.cons_ne_nil _ _

theorem exists_mem_splitOn_iff (separator c : Char) (cs : List Char) :
    (∃ piece ∈ splitOn separator cs, c ∈ piece) ↔ c ∈ cs ∧ c ≠ separator := by
  fun_induction splitOn separator cs with
  | case1 => simp
  | case2 cs ih =>
    simp only [List.mem_cons, exists_eq_or_imp, List.not_mem_nil, false_or, ih]
    grind
  | case3 d cs hNe hNil ih =>
    rw [hNil] at ih
    simp only [List.not_mem_nil, false_and, exists_false, false_iff] at ih
    simp only [List.mem_cons]
    grind
  | case4 d cs hNe piece pieces hPieces ih =>
    rw [hPieces] at ih
    simp only [List.mem_cons, exists_eq_or_imp] at ih ⊢
    grind

theorem eq_append_flatMap_of_splitOn {cs : List Char} {pieces : List (List Char)}
    (h : splitOn separator cs = piece :: pieces) :
    cs = piece ++ pieces.flatMap (separator :: ·) := by
  fun_induction splitOn separator cs generalizing piece pieces with
  | case1 =>
    cases h
    rfl
  | case2 cs ih =>
    obtain ⟨rfl, rfl⟩ := List.cons.inj h
    obtain ⟨first, others, hOthers⟩ := List.exists_cons_of_ne_nil (splitOn_ne_nil separator cs)
    rw [hOthers, List.nil_append, List.flatMap_cons, List.cons_append, ← ih hOthers]
  | case3 c cs _ hNil _ => exact absurd hNil (splitOn_ne_nil separator cs)
  | case4 c cs _ first others hOthers ih =>
    obtain ⟨rfl, rfl⟩ := List.cons.inj h
    rw [List.cons_append, ← ih hOthers]

theorem splitOn_injective (separator : Char) : Function.Injective (splitOn separator) := by
  intro cs others h
  obtain ⟨piece, pieces, hPieces⟩ := List.exists_cons_of_ne_nil (splitOn_ne_nil separator cs)
  have hOthers := h.symm.trans hPieces
  rw [eq_append_flatMap_of_splitOn hPieces, eq_append_flatMap_of_splitOn hOthers]

theorem intercalate_cons (separator : Char) (piece : List Char) (pieces : List (List Char)) :
    [separator].intercalate (piece :: pieces) = piece ++ pieces.flatMap (separator :: ·) := by
  induction pieces generalizing piece with
  | nil => simp
  | cons other pieces ih =>
    rw [List.intercalate_cons_cons, ih, List.flatMap_cons, List.append_assoc, List.cons_append]
    rfl

/-- Pieces that were joined are found again. -/
theorem splitOn_intercalate {pieces : List (List Char)}
    (hPieces : ∀ other ∈ piece :: pieces, separator ∉ other) :
    splitOn separator ([separator].intercalate (piece :: pieces)) = piece :: pieces := by
  rw [List.forall_mem_cons] at hPieces
  rw [intercalate_cons, splitOn_append_flatMap hPieces.1 hPieces.2]

end Pieces

section FirstPlaces

theorem ne_of_mem_eraseDups_filter {p : String → Bool} {first other : String} {names : List String}
    (hFirst : p first = false) (h : other ∈ (names.filter p).eraseDups) : first ≠ other := by
  rintro rfl
  have hKept := (List.mem_filter.mp (List.mem_eraseDups.mp h)).2
  cases hFirst.symm.trans hKept

/-- Behind a member that is left out, the place of every kept one is one further. -/
theorem pairwise_cons_of_filter {p : String → Bool} {first : String} {names : List String}
    (hFirst : p first = false)
    (h : (names.filter p).eraseDups.Pairwise fun name other =>
      names.idxOf name < names.idxOf other) :
    (names.filter p).eraseDups.Pairwise fun name other =>
      (first :: names).idxOf name < (first :: names).idxOf other := by
  refine h.imp_of_mem fun hName hOther hLess => ?_
  rw [List.idxOf_cons_ne _ (ne_of_mem_eraseDups_filter hFirst hName),
    List.idxOf_cons_ne _ (ne_of_mem_eraseDups_filter hFirst hOther)]
  exact Nat.succ_lt_succ hLess

/-- Each member is kept at its first place. -/
theorem pairwise_eraseDups_filter (p : String → Bool) (names : List String) :
    (names.filter p).eraseDups.Pairwise fun name other =>
      names.idxOf name < names.idxOf other := by
  -- the filter varies because the first member goes from the rest when it is kept
  induction names generalizing p with
  | nil => exact List.Pairwise.nil
  | cons first names ih =>
    cases hFirst : p first with
    | false =>
      rw [List.filter_cons_of_neg (by simp [hFirst])]
      exact pairwise_cons_of_filter hFirst (ih p)
    | true =>
      rw [List.filter_cons_of_pos hFirst, List.eraseDups_cons, List.filter_filter,
        List.pairwise_cons]
      refine ⟨fun other hOther => ?_, pairwise_cons_of_filter (by simp) (ih _)⟩
      rw [List.idxOf_cons_self,
        List.idxOf_cons_ne _ (ne_of_mem_eraseDups_filter (by simp) hOther)]
      exact Nat.succ_pos _

theorem nodup_of_pairwise_idxOf {kept names : List String}
    (h : kept.Pairwise fun name other => names.idxOf name < names.idxOf other) : kept.Nodup := by
  refine h.imp fun hLess hSame => ?_
  rw [hSame] at hLess
  exact Nat.lt_irrefl _ hLess

theorem nodup_eraseDups (names : List String) : names.eraseDups.Nodup := by
  have hPlaces := pairwise_eraseDups_filter (fun _ => true) names
  rw [List.filter_true] at hPlaces
  exact nodup_of_pairwise_idxOf hPlaces

end FirstPlaces

end DtdConformance.Text
