import DtdConformance.Proofs.Text.Trim

/-! # Words with single spaces

The words of a text with one space between any two of them are the text with its runs of blanks
collapsed. Both have the characters of the text that are not blank, in the same order.
-/
namespace DtdConformance.Text
set_option autoImplicit false

attribute [local simp] wordsFrom collapseRuns

/-! ## Words -/

theorem wordsFrom_ne_nil {acc : List Char} (h : acc ≠ []) (cs : List Char) :
    wordsFrom acc cs ≠ [] := by
  induction cs generalizing acc with
  | nil => simpa using h
  | cons c cs ih =>
    rw [wordsFrom]
    split
    · simp [h]
    · exact ih (List.cons_ne_nil c acc)

theorem words_cons_of_blank {c : Char} (h : isBlank c = true) (cs : List Char) :
    words (c :: cs) = words cs := by
  rw [words, wordsFrom, if_pos h]
  rfl

theorem words_eq_nil_iff (cs : List Char) : words cs = [] ↔ ∀ c ∈ cs, isBlank c = true := by
  induction cs with
  | nil => simp [words]
  | cons c cs ih =>
    cases hBlank : isBlank c with
    | true =>
      rw [words_cons_of_blank hBlank, ih, List.forall_mem_cons]
      exact (and_iff_right hBlank).symm
    | false =>
      have hSome : words (c :: cs) ≠ [] := by
        rw [words, wordsFrom, hBlank]
        exact wordsFrom_ne_nil (List.cons_ne_nil c []) cs
      simp [hSome, hBlank]

theorem words_trimLeft (cs : List Char) : words (trimLeft cs) = words cs := by
  induction cs with
  | nil => rfl
  | cons c cs ih =>
    cases hBlank : isBlank c with
    | true =>
      rw [trimLeft, List.dropWhile_cons_of_pos hBlank, words_cons_of_blank hBlank, ← ih, trimLeft]
    | false => rw [trimLeft, List.dropWhile_cons_of_neg (by simp [hBlank])]

/-! ## Runs of blanks -/

theorem trimRight_cons_of_ne_nil {cs : List Char} (h : trimRight cs ≠ []) (c : Char) :
    trimRight (c :: cs) = c :: trimRight cs := by
  have hSome : (cs.reverse.dropWhile isBlank).isEmpty = false := by
    rw [trimRight, ne_eq, List.reverse_eq_nil_iff] at h
    simpa using h
  rw [trimRight, List.reverse_cons, List.dropWhile_append, hSome]
  simp [trimRight]

theorem trimRight_cons_of_not_blank {c : Char} (h : isBlank c = false) (cs : List Char) :
    trimRight (c :: cs) = c :: trimRight cs := by
  have hReverse : (cs.reverse ++ [c]).dropWhile isBlank = cs.reverse.dropWhile isBlank ++ [c] :=
    dropWhile_append_of_head? (by simp [h])
  rw [trimRight, List.reverse_cons, hReverse]
  simp [trimRight]

theorem collapseRuns_cons_of_not_blank {c : Char} (h : isBlank c = false) (inRun : Bool)
    (cs : List Char) : collapseRuns inRun (c :: cs) = c :: collapseRuns false cs := by
  simp [h]

theorem removeBlanks_collapseRuns (inRun : Bool) (cs : List Char) :
    removeBlanks (collapseRuns inRun cs) = removeBlanks cs := by
  induction cs generalizing inRun with
  | nil => rfl
  | cons c cs ih =>
    cases hBlank : isBlank c with
    | true =>
      rw [removeBlanks_cons_of_blank hBlank, collapseRuns, if_pos hBlank]
      cases inRun with
      | true => exact ih true
      | false =>
        rw [if_neg (by simp), removeBlanks_cons_of_blank (by decide)]
        exact ih true
    | false =>
      rw [collapseRuns_cons_of_not_blank hBlank, removeBlanks_cons_of_not_blank hBlank,
        removeBlanks_cons_of_not_blank hBlank, ih]

theorem removeBlanks_normalizeBlanks (cs : List Char) :
    removeBlanks (normalizeBlanks cs) = removeBlanks cs := by
  rw [normalizeBlanks, removeBlanks_collapseRuns, removeBlanks_trim]

/-! ## Words and runs -/

/-- One space stands between two words. A word that has begun is ended by the first blank, and
before the first word the text is in a run. -/
theorem intercalate_wordsFrom (cs : List Char) :
    (∀ acc ≠ [], [' '].intercalate (wordsFrom acc cs) =
        acc.reverse ++ collapseRuns false (trimRight cs)) ∧
      [' '].intercalate (words cs) = collapseRuns true (trimRight cs) := by
  induction cs with
  | nil =>
    refine ⟨fun acc hAcc => ?_, rfl⟩
    have hSome : acc.isEmpty = false := by simpa using hAcc
    simp [hSome, trimRight]
  | cons c cs ih =>
    obtain ⟨ihInside, ihBetween⟩ := ih
    cases hBlank : isBlank c with
    | false =>
      have hWord := ihInside [c] (List.cons_ne_nil c [])
      simp only [trimRight_cons_of_not_blank hBlank, collapseRuns_cons_of_not_blank hBlank, words,
        wordsFrom, hBlank]
      refine ⟨fun acc _ => ?_, hWord⟩
      have hInside := ihInside (c :: acc) (List.cons_ne_nil c acc)
      rwa [List.reverse_cons, List.append_assoc] at hInside
    | true =>
      have hEnd (acc : List Char) (hAcc : acc ≠ []) :
          wordsFrom acc (c :: cs) = acc.reverse :: words cs := by
        rw [wordsFrom, if_pos hBlank, if_neg (by simpa using hAcc), words]
      rw [words_cons_of_blank hBlank]
      by_cases hRest : trimRight cs = []
      · have hAll := (trimRight_eq_nil_iff cs).mp hRest
        have hNone : trimRight (c :: cs) = [] :=
          (trimRight_eq_nil_iff _).mpr (List.forall_mem_cons.mpr ⟨hBlank, hAll⟩)
        have hNoWords := (words_eq_nil_iff cs).mpr hAll
        rw [hNone, hNoWords]
        refine ⟨fun acc hAcc => ?_, rfl⟩
        rw [hEnd acc hAcc, hNoWords]
        simp
      · have hSome : words cs ≠ [] :=
          mt (fun hNone => (trimRight_eq_nil_iff cs).mpr ((words_eq_nil_iff cs).mp hNone)) hRest
        obtain ⟨next, later, hWords⟩ := List.exists_cons_of_ne_nil hSome
        rw [trimRight_cons_of_ne_nil hRest]
        refine ⟨fun acc hAcc => ?_, ?_⟩
        · rw [hEnd acc hAcc, hWords, List.intercalate_cons_cons, ← hWords, ihBetween, collapseRuns,
            if_pos hBlank, if_neg (by simp), List.append_assoc]
          rfl
        · rw [ihBetween, collapseRuns, if_pos hBlank, if_pos rfl]

/-- The first character of a trimmed text is not blank, so no run stands before it. -/
theorem collapseRuns_trim (cs : List Char) :
    collapseRuns true (trim cs) = collapseRuns false (trim cs) := by
  have hHead := head?_trim cs
  cases hTrim : trim cs with
  | nil => rfl
  | cons c rest =>
    have hBlank : isBlank c = false := hHead c (by rw [hTrim]; rfl)
    rw [collapseRuns_cons_of_not_blank hBlank, collapseRuns_cons_of_not_blank hBlank]

theorem intercalate_words (cs : List Char) :
    [' '].intercalate (words cs) = normalizeBlanks cs := by
  rw [← words_trimLeft, (intercalate_wordsFrom (trimLeft cs)).2, normalizeBlanks,
    ← collapseRuns_trim, trim]

end DtdConformance.Text
