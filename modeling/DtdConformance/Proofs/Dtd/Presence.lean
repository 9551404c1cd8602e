import DtdConformance.Dtd.Table
import DtdConformance.Proofs.Text.Character

/-! # Where declarations stand

A declaration is its opening, blanks, a name, blanks, a content model without a greater-than sign,
and that sign. A text whose comments are blanked out is found to hold declarations exactly when
one stands somewhere in it.
-/
namespace DtdConformance.Dtd
set_option autoImplicit false

open Text

/-- The text begins with what follows the opening of a declaration. -/
def BeginsAfterOpener (cs : List Char) : Prop :=
  ∃ gap name space spec rest, cs = gap ++ (name ++ (space ++ (spec ++ '>' :: rest))) ∧
    IsGap gap ∧ IsName name ∧ IsGap space ∧ spec ≠ [] ∧ '>' ∉ spec

/-- A declaration stands somewhere in the text. -/
def HasDeclaration (cs : List Char) : Prop :=
  ∃ before inside, cs = before ++ (declarationOpener ++ inside) ∧ BeginsAfterOpener inside

theorem isBlank_close : isBlank '>' = false := by decide

theorem eq_append_of_dropWhile_close {cs rest : List Char} {c : Char}
    (h : cs.dropWhile (fun c => c != '>') = c :: rest) :
    cs = cs.takeWhile (fun c => c != '>') ++ '>' :: rest := by
  have hHead := List.head?_dropWhile_not (fun c => c != '>') cs
  rw [h] at hHead
  have hClose : c = '>' := by simpa using hHead
  subst hClose
  rw [← h, List.takeWhile_append_dropWhile]

theorem not_mem_takeWhile_close (cs : List Char) : '>' ∉ cs.takeWhile (fun c => c != '>') := by
  intro hMem
  simpa using List.mem_takeWhile_imp hMem

theorem specAfterName?_sound {cs spec rest : List Char}
    (h : specAfterName? cs = some (spec, rest)) :
    ∃ space, cs = space ++ (spec ++ '>' :: rest) ∧ IsGap space ∧ spec ≠ [] ∧ '>' ∉ spec := by
  have hBlanks : ∀ c ∈ cs.takeWhile isBlank, isBlank c = true :=
    fun c hMem => List.mem_takeWhile_imp hMem
  have hCut := List.takeWhile_append_dropWhile (p := isBlank) (l := cs)
  unfold specAfterName? at h
  dsimp only at h
  split at h
  · cases h
  · next c after hClose =>
    have hBody := eq_append_of_dropWhile_close hClose
    split at h
    · cases h
    · next hGap =>
      have hGap : cs.takeWhile isBlank ≠ [] := by simpa using hGap
      split at h
      · next hNonempty =>
        cases h
        refine ⟨cs.takeWhile isBlank, ?_, ⟨hGap, hBlanks⟩, by simpa using hNonempty,
          not_mem_takeWhile_close _⟩
        rw [← hBody, hCut]
      · next hEmpty =>
        have hEmpty : (cs.dropWhile isBlank).takeWhile (fun c => c != '>') = [] := by
          simpa using hEmpty
        rw [hEmpty, List.nil_append] at hBody
        split at h
        · next hTwo =>
          cases h
          have hSplit := List.take_append_drop ((cs.takeWhile isBlank).length - 1)
            (cs.takeWhile isBlank)
          refine ⟨(cs.takeWhile isBlank).take ((cs.takeWhile isBlank).length - 1), ?_,
            ⟨?_, ?_⟩, ?_, ?_⟩
          · rw [← List.append_assoc, hSplit, ← hBody, hCut]
          · apply List.ne_nil_of_length_pos
            rw [List.length_take]
            omega
          · exact fun c hMem => hBlanks c (List.mem_of_mem_take hMem)
          · apply List.ne_nil_of_length_pos
            rw [List.length_drop]
            omega
          · exact not_mem_of_blank (fun c hMem => hBlanks c (List.mem_of_mem_drop hMem))
              isBlank_close
        · cases h

/-- What is found between a name and the greater-than sign, by the text there. -/
theorem specAfterName?_append_close {inside rest : List Char} (hInside : '>' ∉ inside) :
    specAfterName? (inside ++ '>' :: rest) =
      if (inside.takeWhile isBlank).isEmpty then none
      else if !(inside.dropWhile isBlank).isEmpty then some (inside.dropWhile isBlank, rest)
      else if 2 ≤ (inside.takeWhile isBlank).length then
        some ((inside.takeWhile isBlank).drop ((inside.takeWhile isBlank).length - 1), rest)
      else none := by
  have hBlank : ∀ c ∈ ('>' :: rest).head?, isBlank c = false := by
    rintro c ⟨⟩
    exact isBlank_close
  have hClose : ∀ c ∈ ('>' :: rest).head?, (c != '>') = false := by
    rintro c ⟨⟩
    rfl
  have hBody : ∀ c ∈ inside.dropWhile isBlank, (c != '>') = true := by
    intro c hMem
    have hNe : c ≠ '>' := fun hEq => hInside (hEq ▸ (List.dropWhile_sublist isBlank).mem hMem)
    simpa using hNe
  unfold specAfterName?
  simp only [takeWhile_append_of_head? hBlank, dropWhile_append_of_head? hBlank,
    takeWhile_run hBody hClose, dropWhile_run hBody hClose]

theorem specAfterName?_complete {space spec : List Char} (rest : List Char)
    (hSpace : IsGap space) (hSpec : spec ≠ []) (hClose : '>' ∉ spec) :
    specAfterName? (space ++ (spec ++ '>' :: rest)) ≠ none := by
  obtain ⟨hNonempty, hBlank⟩ := hSpace
  have hInside : '>' ∉ space ++ spec :=
    fun hMem => (List.mem_append.mp hMem).elim (not_mem_of_blank hBlank isBlank_close) hClose
  have hGap : ((space ++ spec).takeWhile isBlank).isEmpty = false := by
    rw [List.takeWhile_append_of_pos hBlank]
    simp [hNonempty]
  rw [← List.append_assoc, specAfterName?_append_close hInside, hGap]
  by_cases hBody : (space ++ spec).dropWhile isBlank = []
  · have hTake : (space ++ spec).takeWhile isBlank = space ++ spec :=
      List.takeWhile_eq_self_iff.mpr (List.dropWhile_eq_nil_iff.mp hBody)
    have hSpaceLength := List.length_pos_iff.mpr hNonempty
    have hSpecLength := List.length_pos_iff.mpr hSpec
    have hTwo : 2 ≤ (space ++ spec).length := by
      rw [List.length_append]
      omega
    simp only [hBody, hTake, hTwo, List.isEmpty_nil, Bool.not_true, Bool.false_eq_true, if_false,
      if_true, ne_eq, reduceCtorEq, not_false_eq_true]
  · simp [hBody]

theorem afterOpener?_sound {cs name spec rest : List Char}
    (h : afterOpener? cs = some (name, spec, rest)) :
    ∃ gap space, cs = gap ++ (name ++ (space ++ (spec ++ '>' :: rest))) ∧
      IsGap gap ∧ IsName name ∧ IsGap space ∧ spec ≠ [] ∧ '>' ∉ spec := by
  unfold afterOpener? at h
  dsimp only at h
  split at h
  · cases h
  · next hParts =>
    simp only [Bool.or_eq_true, List.isEmpty_iff, not_or] at hParts
    obtain ⟨⟨found, after⟩, hSpec, hEq⟩ := Option.map_eq_some_iff.mp h
    cases hEq
    obtain ⟨space, hSpace, hGap, hNonempty, hClose⟩ := specAfterName?_sound hSpec
    refine ⟨cs.takeWhile isBlank, space, ?_, ⟨hParts.1, fun c hMem => List.mem_takeWhile_imp hMem⟩,
      ⟨hParts.2, fun c hMem => List.mem_takeWhile_imp hMem⟩, hGap, hNonempty, hClose⟩
    rw [← hSpace, List.takeWhile_append_dropWhile, List.takeWhile_append_dropWhile]

theorem afterOpener?_ne_none_iff (cs : List Char) :
    afterOpener? cs ≠ none ↔ BeginsAfterOpener cs := by
  constructor
  · intro h
    obtain ⟨⟨name, spec, rest⟩, hSome⟩ := Option.ne_none_iff_exists'.mp h
    obtain ⟨gap, space, hText, hParts⟩ := afterOpener?_sound hSome
    exact ⟨gap, name, space, spec, rest, hText, hParts⟩
  · rintro ⟨gap, name, space, spec, rest, rfl, hGap, hName, hSpace, hSpec, hClose⟩
    have hNameHead : ∀ c ∈ (name ++ (space ++ (spec ++ '>' :: rest))).head?, isBlank c = false :=
      head?_append_of_all hName.1 fun c hMem => isBlank_eq_false_of_isNameChar (hName.2 c hMem)
    have hSpaceHead : ∀ c ∈ (space ++ (spec ++ '>' :: rest)).head?, isNameChar c = false :=
      head?_append_of_all hSpace.1 fun c hMem => isNameChar_eq_false_of_isBlank (hSpace.2 c hMem)
    unfold afterOpener?
    simp only [takeWhile_run hGap.2 hNameHead, dropWhile_run hGap.2 hNameHead,
      takeWhile_run hName.2 hSpaceHead, dropWhile_run hName.2 hSpaceHead]
    have hSome := specAfterName?_complete rest hSpace hSpec hClose
    simpa [hGap.1, hName.1] using hSome

theorem declarationAt?_ne_none_iff (cs : List Char) : declarationAt? cs ≠ none ↔
    ∃ inside, cs = declarationOpener ++ inside ∧ BeginsAfterOpener inside := by
  unfold declarationAt?
  constructor
  · intro h
    cases hAfter : after? declarationOpener cs with
    | none => simp [hAfter] at h
    | some inside =>
      rw [hAfter, Option.bind_some] at h
      exact ⟨inside, (after?_eq_some_iff ..).mp hAfter, (afterOpener?_ne_none_iff inside).mp h⟩
  · rintro ⟨inside, hInside, hBegins⟩
    rw [(after?_eq_some_iff ..).mpr hInside, Option.bind_some]
    exact (afterOpener?_ne_none_iff inside).mpr hBegins

theorem declarationsFrom_ne_nil_iff (offset : Nat) (cs : List Char) :
    declarationsFrom offset cs ≠ [] ↔ HasDeclaration cs := by
  fun_induction declarationsFrom offset cs with
  | case1 offset cs name spec rest hSome ih =>
    obtain ⟨inside, hInside, hBegins⟩ := (declarationAt?_ne_none_iff cs).mp (by simp [hSome])
    simpa using ⟨[], inside, hInside, hBegins⟩
  | case2 offset hNone =>
    constructor
    · exact fun h => absurd rfl h
    · rintro ⟨before, inside, hText, _⟩
      simp [declarationOpener] at hText
  | case3 offset c cs hNone ih =>
    rw [ih]
    constructor
    · rintro ⟨before, inside, rfl, hBegins⟩
      exact ⟨c :: before, inside, rfl, hBegins⟩
    · rintro ⟨before, inside, hText, hBegins⟩
      cases before with
      | nil => exact absurd hNone ((declarationAt?_ne_none_iff _).mpr ⟨inside, hText, hBegins⟩)
      | cons d before =>
        obtain ⟨_, rfl⟩ := List.cons.inj hText
        exact ⟨before, inside, rfl, hBegins⟩

theorem declarations_ne_nil_iff (cs : List Char) :
    declarations cs ≠ [] ↔ HasDeclaration (Markup.maskComments cs) :=
  declarationsFrom_ne_nil_iff 0 _

end DtdConformance.Dtd
