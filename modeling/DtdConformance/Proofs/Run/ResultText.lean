import Mathlib.Data.List.Basic
import DtdConformance.Proofs.Text.Character
import DtdConformance.Proofs.Text.Search
import DtdConformance.Run.Result

/-! # The text of a result

A result is written line by line: its heading, its summary, and the lines of its errors. An error
may have any number of lines and hold whatever a document holds. Its first line stands behind a
bullet and the others are indented farther than a bullet, so the text of a result still tells where
each error begins, and two results that read the same have the same errors.
-/
namespace DtdConformance.Run.Result
set_option autoImplicit false

open Text

/-! ## Lines of errors -/

def indentation : String := "    "

def bulleted (piece : List Char) : String := "  - " ++ String.ofList piece

def indented (piece : List Char) : String := indentation ++ String.ofList piece

theorem bulleted_injective : Function.Injective bulleted := by
  intro piece other h
  rw [bulleted, bulleted, String.append_right_inj] at h
  exact String.ofList_injective h

theorem indented_injective : Function.Injective indented := by
  intro piece other h
  rw [indented, indented, String.append_right_inj] at h
  exact String.ofList_injective h

/-- The line goes on with an error. -/
def isContinued (line : String) : Bool := indentation.toList.isPrefixOf line.toList

theorem isContinued_indented (piece : List Char) : isContinued (indented piece) = true := by
  rw [isContinued, indented, String.toList_append, List.isPrefixOf_iff_prefix]
  exact List.prefix_append _ _

theorem isContinued_bulleted (piece : List Char) : isContinued (bulleted piece) = false := by
  rw [isContinued, bulleted, String.toList_append]
  rfl

theorem isContinued_of_mem_map_indented {pieces : List (List Char)} :
    ∀ line ∈ pieces.map indented, isContinued line = true := by
  intro line hLine
  obtain ⟨piece, -, rfl⟩ := List.mem_map.mp hLine
  exact isContinued_indented piece

/-- The lines of a bullet are those of its error, each behind its mark. -/
theorem exists_bullet_eq (error : String) : ∃ first rest,
    splitOn '\n' error.toList = first :: rest ∧
      bullet error = bulleted first :: rest.map indented := by
  obtain ⟨first, rest, hLines⟩ := List.exists_cons_of_ne_nil (splitOn_ne_nil '\n' error.toList)
  refine ⟨first, rest, hLines, ?_⟩
  rw [bullet, hLines]
  rfl

theorem flatMap_bullet_eq_nil_iff {errors : List String} :
    errors.flatMap bullet = [] ↔ errors = [] := by
  cases errors with
  | nil => exact iff_of_true rfl rfl
  | cons error errors =>
    obtain ⟨first, rest, -, hBullet⟩ := exists_bullet_eq error
    rw [List.flatMap_cons, hBullet]
    exact iff_of_false (List.cons_ne_nil _ _) (List.cons_ne_nil _ _)

theorem bullet_unbroken (error : String) : ∀ line ∈ bullet error, '\n' ∉ line.toList := by
  obtain ⟨first, rest, hLines, hBullet⟩ := exists_bullet_eq error
  have hPieces : ∀ piece ∈ first :: rest, '\n' ∉ piece := by
    intro piece hPiece hFeed
    rw [← hLines] at hPiece
    exact ((exists_mem_splitOn_iff '\n' '\n' error.toList).mp ⟨piece, hPiece, hFeed⟩).2 rfl
  rw [List.forall_mem_cons] at hPieces
  intro line hLine
  rw [hBullet] at hLine
  obtain rfl | hRest := List.mem_cons.mp hLine
  · simp [bulleted, hPieces.1]
  · obtain ⟨piece, hPiece, rfl⟩ := List.mem_map.mp hRest
    simp [indented, indentation, hPieces.2 piece hPiece]

/-- The lines of a list of errors begin with a bullet. -/
theorem head?_flatMap_bullet (errors : List String) :
    ∀ line ∈ (errors.flatMap bullet).head?, isContinued line = false := by
  intro line hHead
  cases errors with
  | nil => cases hHead
  | cons error errors =>
    obtain ⟨first, rest, -, hBullet⟩ := exists_bullet_eq error
    rw [List.flatMap_cons, hBullet] at hHead
    cases hHead
    exact isContinued_bulleted first

/-- A bullet ends where the next line does not go on with it, so it can be told from the rest. -/
theorem bullet_append_injective {error other : String} {lines others : List String}
    (hLines : ∀ line ∈ lines.head?, isContinued line = false)
    (hOthers : ∀ line ∈ others.head?, isContinued line = false)
    (h : bullet error ++ lines = bullet other ++ others) : error = other ∧ lines = others := by
  obtain ⟨first, rest, hSplit, hBullet⟩ := exists_bullet_eq error
  obtain ⟨first', rest', hSplit', hBullet'⟩ := exists_bullet_eq other
  rw [hBullet, hBullet', List.cons_append, List.cons_append, List.cons.injEq] at h
  obtain ⟨hFirst, hBehind⟩ := h
  have hRest : rest.map indented = rest'.map indented := by
    have hTaken := congrArg (List.takeWhile isContinued) hBehind
    rwa [takeWhile_run isContinued_of_mem_map_indented hLines,
      takeWhile_run isContinued_of_mem_map_indented hOthers] at hTaken
  have hAfter : lines = others := by
    have hDropped := congrArg (List.dropWhile isContinued) hBehind
    rwa [dropWhile_run isContinued_of_mem_map_indented hLines,
      dropWhile_run isContinued_of_mem_map_indented hOthers] at hDropped
  refine ⟨?_, hAfter⟩
  apply String.toList_injective
  apply splitOn_injective '\n'
  rw [hSplit, hSplit', bulleted_injective hFirst,
    List.map_injective_iff.mpr indented_injective hRest]

theorem flatMap_bullet_injective {errors others : List String}
    (h : errors.flatMap bullet = others.flatMap bullet) : errors = others := by
  induction errors generalizing others with
  | nil => exact (flatMap_bullet_eq_nil_iff.mp h.symm).symm
  | cons error errors ih =>
    cases others with
    | nil => exact flatMap_bullet_eq_nil_iff.mp h
    | cons other others =>
      rw [List.flatMap_cons, List.flatMap_cons] at h
      obtain ⟨rfl, hRest⟩ := bullet_append_injective (head?_flatMap_bullet errors)
        (head?_flatMap_bullet others) h
      rw [ih hRest]

/-! ## The whole text -/

def heading (label : String) (result : Result) : String :=
  if label.isEmpty then result.title else label ++ ": " ++ result.title

def lines (label : String) (result : Result) : List String :=
  result.heading label :: ("  " ++ result.summary) :: result.errors.flatMap bullet

section

variable {label : String} {result other : Result}

theorem heading_unbroken (hLabel : '\n' ∉ label.toList) : '\n' ∉ (result.heading label).toList := by
  have hTitle : '\n' ∉ result.title.toList := by
    unfold title
    split <;> decide
  unfold heading
  split
  · exact hTitle
  · simp [hLabel, hTitle]

theorem lines_unbroken (hLabel : '\n' ∉ label.toList) (hSummary : '\n' ∉ result.summary.toList) :
    ∀ line ∈ result.lines label, '\n' ∉ line.toList := by
  rw [lines, List.forall_mem_cons, List.forall_mem_cons]
  refine ⟨heading_unbroken hLabel, by simpa using hSummary, fun line hLine => ?_⟩
  obtain ⟨error, -, hLine⟩ := List.mem_flatMap.mp hLine
  exact bullet_unbroken error line hLine

/-- The lines of a text are found again at its line feeds. -/
theorem splitOn_text (hLabel : '\n' ∉ label.toList) (hSummary : '\n' ∉ result.summary.toList) :
    splitOn '\n' (result.text label).toList = (result.lines label).map String.toList := by
  have hText : (result.text label).toList =
      ['\n'].intercalate ((result.lines label).map String.toList) := String.toList_intercalate
  rw [hText]
  apply splitOn_intercalate
  change ∀ line ∈ (result.lines label).map String.toList, '\n' ∉ line
  intro line hLine
  obtain ⟨line, hMem, rfl⟩ := List.mem_map.mp hLine
  exact lines_unbroken hLabel hSummary line hMem

theorem isValid_of_heading_eq (h : result.heading label = other.heading label) :
    result.isValid = other.isValid := by
  have hTitle : result.title = other.title := by
    unfold heading at h
    split at h
    · exact h
    · exact (String.append_right_inj _).mp h
  unfold title at hTitle
  cases hValid : result.isValid <;> cases hOther : other.isValid <;>
    simp [hValid, hOther] at hTitle ⊢

end

/-- Two results that are written the same agree on whether the document is valid, on the summary and
on every error, in number, in order and character by character. -/
theorem text_eq_text_iff {label : String} {result other : Result} (hLabel : '\n' ∉ label.toList)
    (hSummary : '\n' ∉ result.summary.toList) (hOther : '\n' ∉ other.summary.toList) :
    result.text label = other.text label ↔
      result.isValid = other.isValid ∧ result.summary = other.summary ∧
        result.errors = other.errors := by
  constructor
  · intro h
    have hLines : result.lines label = other.lines label := by
      apply List.map_injective_iff.mpr fun _ _ hSame => String.toList_injective hSame
      rw [← splitOn_text hLabel hSummary, ← splitOn_text hLabel hOther, h]
    obtain ⟨hHeading, hBelow⟩ := List.cons.inj hLines
    obtain ⟨hSummaries, hBullets⟩ := List.cons.inj hBelow
    exact ⟨isValid_of_heading_eq hHeading, (String.append_right_inj _).mp hSummaries,
      flatMap_bullet_injective hBullets⟩
  · rintro ⟨hValid, hSummaries, hErrors⟩
    simp only [text, title, hValid, hSummaries, hErrors]

def feigning : Result := ⟨false, ["a\n  - b", "c\n\n    d"], "Found 2.", ""⟩

def unfeigned : Result := { feigning with errors := ["a", "b", "c\n\n    d"] }

/-- One error that feigns a bullet is not taken for two errors. -/
theorem text_eq_text_iff_of_feigning :
    '\n' ∉ "x.xml".toList ∧ '\n' ∉ feigning.summary.toList ∧ '\n' ∉ unfeigned.summary.toList ∧
      feigning.text "x.xml" ≠ unfeigned.text "x.xml" := by
  have hLabel : '\n' ∉ "x.xml".toList := by decide
  have hFeigning : '\n' ∉ feigning.summary.toList := by decide
  have hUnfeigned : '\n' ∉ unfeigned.summary.toList := by decide
  refine ⟨hLabel, hFeigning, hUnfeigned, fun hText => ?_⟩
  obtain ⟨-, -, hErrors⟩ := (text_eq_text_iff hLabel hFeigning hUnfeigned).mp hText
  exact absurd hErrors (by decide)

end DtdConformance.Run.Result
