import Mathlib.Data.List.TakeWhile
import DtdConformance.Text.Blank
import DtdConformance.Text.Word

/-! # Blank characters and name characters

No character is both, so blanks and names cut a text in one way. A text without anything but blanks
is trimmed to nothing.
-/
namespace DtdConformance.Text
set_option autoImplicit false

def blankCodes : List Nat :=
  List.range' 0x09 5 ++ List.range' 0x1C 5 ++ List.range' 0x2000 11 ++
    [0x85, 0xA0, 0x1680, 0x2028, 0x2029, 0x202F, 0x205F, 0x3000]

theorem toNat_mem_blankCodes {c : Char} (h : isBlank c = true) : c.toNat ∈ blankCodes := by
  simp only [isBlank, Bool.or_eq_true, Bool.and_eq_true, decide_eq_true_eq, beq_iff_eq] at h
  simp only [blankCodes, List.mem_append, List.mem_range'_1, List.mem_cons, List.not_mem_nil]
  omega

theorem isNameChar_ofNat_eq_false : ∀ n ∈ blankCodes, isNameChar (Char.ofNat n) = false := by
  decide +kernel

theorem isNameChar_eq_false_of_isBlank {c : Char} (h : isBlank c = true) :
    isNameChar c = false := by
  have hCode := isNameChar_ofNat_eq_false c.toNat (toNat_mem_blankCodes h)
  rwa [Char.ofNat_toNat] at hCode

theorem isBlank_eq_false_of_isNameChar {c : Char} (h : isNameChar c = true) :
    isBlank c = false := by
  cases hBlank : isBlank c with
  | false => rfl
  | true => simp [isNameChar_eq_false_of_isBlank hBlank] at h

theorem hasText_eq_false_iff (cs : List Char) :
    hasText cs = false ↔ ∀ c ∈ cs, isBlank c = true := by
  simp [hasText]

theorem trimRight_eq_nil_iff (cs : List Char) :
    trimRight cs = [] ↔ ∀ c ∈ cs, isBlank c = true := by
  rw [trimRight, List.reverse_eq_nil_iff, List.dropWhile_eq_nil_iff]
  simp

theorem trim_eq_nil_iff (cs : List Char) : trim cs = [] ↔ ∀ c ∈ cs, isBlank c = true := by
  rw [trim, trimRight_eq_nil_iff]
  constructor
  · intro h c hMem
    rw [← List.takeWhile_append_dropWhile (p := isBlank) (l := cs)] at hMem
    rcases List.mem_append.mp hMem with hTake | hDrop
    · exact List.mem_takeWhile_imp hTake
    · exact h c hDrop
  · intro h c hMem
    exact h c ((List.dropWhile_sublist isBlank).mem hMem)

/-! ## Runs of one class -/

/-- At least one blank and nothing else. -/
def IsGap (cs : List Char) : Prop := cs ≠ [] ∧ ∀ c ∈ cs, isBlank c = true

/-- At least one name character and nothing else. -/
def IsName (cs : List Char) : Prop := cs ≠ [] ∧ ∀ c ∈ cs, isNameChar c = true

instance (cs : List Char) : Decidable (IsGap cs) :=
  decidable_of_iff (cs ≠ [] ∧ cs.all isBlank = true) (by rw [IsGap, List.all_eq_true])

instance (cs : List Char) : Decidable (IsName cs) :=
  decidable_of_iff (cs ≠ [] ∧ cs.all isNameChar = true) (by rw [IsName, List.all_eq_true])

theorem not_mem_of_blank {cs : List Char} {c : Char} (h : ∀ d ∈ cs, isBlank d = true)
    (hChar : isBlank c = false) : c ∉ cs := by
  intro hMem
  simp [h c hMem] at hChar

theorem not_mem_of_nameChar {cs : List Char} {c : Char} (h : ∀ d ∈ cs, isNameChar d = true)
    (hChar : isNameChar c = false) : c ∉ cs := by
  intro hMem
  simp [h c hMem] at hChar

section Runs

variable {α : Type} {p : α → Bool} {run rest : List α}

theorem takeWhile_append_of_head? (hRest : ∀ c ∈ rest.head?, p c = false) :
    (run ++ rest).takeWhile p = run.takeWhile p := by
  induction run with
  | nil =>
    cases rest with
    | nil => rfl
    | cons c rest => simp [hRest c rfl]
  | cons c run ih => simp only [List.cons_append, List.takeWhile_cons, ih]

theorem dropWhile_append_of_head? (hRest : ∀ c ∈ rest.head?, p c = false) :
    (run ++ rest).dropWhile p = run.dropWhile p ++ rest := by
  induction run with
  | nil =>
    cases rest with
    | nil => rfl
    | cons c rest => simp [hRest c rfl]
  | cons c run ih =>
    simp only [List.cons_append, List.dropWhile_cons, ih]
    split <;> rfl

/-- A run is taken whole when what follows does not go on with it. -/
theorem takeWhile_run (hRun : ∀ c ∈ run, p c = true) (hRest : ∀ c ∈ rest.head?, p c = false) :
    (run ++ rest).takeWhile p = run := by
  rw [takeWhile_append_of_head? hRest, List.takeWhile_eq_self_iff.mpr hRun]

theorem dropWhile_run (hRun : ∀ c ∈ run, p c = true) (hRest : ∀ c ∈ rest.head?, p c = false) :
    (run ++ rest).dropWhile p = rest := by
  rw [dropWhile_append_of_head? hRest, List.dropWhile_eq_nil_iff.mpr hRun, List.nil_append]

theorem head?_append_of_all {P : α → Prop} (hNonempty : run ≠ []) (hRun : ∀ c ∈ run, P c) :
    ∀ c ∈ (run ++ rest).head?, P c := by
  cases run with
  | nil => exact absurd rfl hNonempty
  | cons d run =>
    intro c hHead
    cases hHead
    exact hRun d List.mem_cons_self

end Runs

end DtdConformance.Text
