import DtdConformance.Proofs.Text.Spacing

/-! # Trimmed texts

Trimming takes blanks from the two ends of a text and nothing else. Blanks put there again do not
count, and what stands between the ends is kept as it is.
-/
namespace DtdConformance.Text
set_option autoImplicit false

theorem exists_blanks_append_trimLeft (cs : List Char) :
    ∃ blanks, (∀ c ∈ blanks, isBlank c = true) ∧ cs = blanks ++ trimLeft cs :=
  ⟨cs.takeWhile isBlank, fun _ hMem => List.mem_takeWhile_imp hMem,
    List.takeWhile_append_dropWhile.symm⟩

theorem exists_trimRight_append_blanks (cs : List Char) :
    ∃ blanks, (∀ c ∈ blanks, isBlank c = true) ∧ cs = trimRight cs ++ blanks := by
  obtain ⟨blanks, hBlanks, hSplit⟩ := exists_blanks_append_trimLeft cs.reverse
  refine ⟨blanks.reverse, fun c hMem => hBlanks c (List.mem_reverse.mp hMem), ?_⟩
  rw [trimRight, ← List.reverse_append]
  exact List.reverse_eq_iff.mp hSplit

section Blanks

variable {blanks : List Char}

theorem trimLeft_blanks_append (h : ∀ c ∈ blanks, isBlank c = true) (cs : List Char) :
    trimLeft (blanks ++ cs) = trimLeft cs := List.dropWhile_append_of_pos h

theorem trimRight_append_blanks (cs : List Char) (h : ∀ c ∈ blanks, isBlank c = true) :
    trimRight (cs ++ blanks) = trimRight cs := by
  rw [trimRight, List.reverse_append,
    List.dropWhile_append_of_pos fun c hMem => h c (List.mem_reverse.mp hMem), trimRight]

theorem trim_blanks_append (h : ∀ c ∈ blanks, isBlank c = true) (cs : List Char) :
    trim (blanks ++ cs) = trim cs := by
  rw [trim, trimLeft_blanks_append h, trim]

theorem trim_append_blanks (cs : List Char) (h : ∀ c ∈ blanks, isBlank c = true) :
    trim (cs ++ blanks) = trim cs := by
  rw [trim, trim, trimLeft, List.dropWhile_append]
  split
  · next hEmpty =>
    rw [List.dropWhile_eq_nil_iff.mpr h]
    exact congrArg trimRight (List.isEmpty_iff.mp hEmpty).symm
  · exact trimRight_append_blanks _ h

end Blanks

/-- A text is its trimmed form with blanks around it. -/
theorem exists_blanks_around_trim (cs : List Char) :
    ∃ front back, (∀ c ∈ front, isBlank c = true) ∧ (∀ c ∈ back, isBlank c = true) ∧
      cs = front ++ (trim cs ++ back) := by
  obtain ⟨front, hFront, hLeft⟩ := exists_blanks_append_trimLeft cs
  obtain ⟨back, hBack, hRight⟩ := exists_trimRight_append_blanks (trimLeft cs)
  exact ⟨front, back, hFront, hBack, hLeft.trans (congrArg (front ++ ·) hRight)⟩

theorem trim_trim (cs : List Char) : trim (trim cs) = trim cs := by
  obtain ⟨front, back, hFront, hBack, hSplit⟩ := exists_blanks_around_trim cs
  calc trim (trim cs)
      = trim (trim cs ++ back) := (trim_append_blanks _ hBack).symm
    _ = trim (front ++ (trim cs ++ back)) := (trim_blanks_append hFront _).symm
    _ = trim cs := congrArg trim hSplit.symm

theorem trim_isInfix (cs : List Char) : trim cs <:+: cs := by
  obtain ⟨front, back, -, -, hSplit⟩ := exists_blanks_around_trim cs
  exact ⟨front, back, by rw [List.append_assoc, ← hSplit]⟩

/-- A blank at the front would make the text shorter when it is trimmed once more. -/
theorem head?_trim (cs : List Char) : ∀ c ∈ (trim cs).head?, isBlank c = false := by
  intro c hHead
  obtain ⟨rest, hTrim⟩ := List.head?_eq_some_iff.mp hHead
  cases hBlank : isBlank c with
  | false => rfl
  | true =>
    have hAgain : trim (c :: rest) = trim rest :=
      trim_blanks_append (List.forall_mem_singleton.mpr hBlank) rest
    have hShorter := (trim_isInfix rest).length_le
    rw [← hAgain, ← hTrim, trim_trim, hTrim, List.length_cons] at hShorter
    omega

theorem getLast?_trim (cs : List Char) : ∀ c ∈ (trim cs).getLast?, isBlank c = false := by
  intro c hLast
  rw [trim, trimRight, List.getLast?_reverse] at hLast
  have hHead := List.head?_dropWhile_not isBlank (trimLeft cs).reverse
  rw [Option.mem_def.mp hLast] at hHead
  simpa using hHead

theorem removeBlanks_trim (cs : List Char) : removeBlanks (trim cs) = removeBlanks cs := by
  obtain ⟨front, back, hFront, hBack, hSplit⟩ := exists_blanks_around_trim cs
  have hNone := (removeBlanks_eq_nil_iff front).mpr hFront
  have hNoneBehind := (removeBlanks_eq_nil_iff back).mpr hBack
  calc removeBlanks (trim cs)
      = removeBlanks (front ++ (trim cs ++ back)) := by
        rw [removeBlanks_append, removeBlanks_append, hNone, hNoneBehind, List.nil_append,
          List.append_nil]
    _ = removeBlanks cs := congrArg removeBlanks hSplit.symm

/-- What is trimmed in two parts towards their outer ends is trimmed as a whole. -/
theorem trim_trimLeft_append_trimRight (before after : List Char) :
    trim (trimLeft before ++ trimRight after) = trim (before ++ after) := by
  obtain ⟨front, hFront, hLeft⟩ := exists_blanks_append_trimLeft before
  obtain ⟨back, hBack, hRight⟩ := exists_trimRight_append_blanks after
  calc trim (trimLeft before ++ trimRight after)
      = trim (front ++ (trimLeft before ++ trimRight after)) := (trim_blanks_append hFront _).symm
    _ = trim (front ++ (trimLeft before ++ trimRight after) ++ back) :=
        (trim_append_blanks _ hBack).symm
    _ = trim (front ++ trimLeft before ++ (trimRight after ++ back)) := by
        simp only [List.append_assoc]
    _ = trim (before ++ after) := by rw [← hLeft, ← hRight]

/-- A stretch between two characters that are not blank is out of reach for trimming. -/
theorem trim_around {first last : Char} (hFirst : isBlank first = false)
    (hLast : isBlank last = false) (before middle after : List Char) :
    trim (before ++ (first :: (middle ++ [last]) ++ after)) =
      trimLeft before ++ (first :: (middle ++ [last]) ++ trimRight after) := by
  have hLeft : trimLeft (before ++ (first :: (middle ++ [last]) ++ after)) =
      trimLeft before ++ (first :: (middle ++ [last]) ++ after) :=
    dropWhile_append_of_head? (by simp [hFirst])
  have hRight :
      (after.reverse ++ (trimLeft before ++ first :: (middle ++ [last])).reverse).dropWhile isBlank =
        after.reverse.dropWhile isBlank ++
          (trimLeft before ++ first :: (middle ++ [last])).reverse :=
    dropWhile_append_of_head? (by simp [hLast])
  rw [trim, hLeft, trimRight, ← List.append_assoc, List.reverse_append, hRight,
    List.reverse_append, List.reverse_reverse, List.append_assoc]
  rfl

end DtdConformance.Text
