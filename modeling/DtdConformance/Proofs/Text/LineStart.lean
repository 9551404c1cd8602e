import DtdConformance.Proofs.Text.LineIndex

/-! # Starts of lines

The starts of the lines of a text increase. So the line of an offset is found by halving the range
of lines in which it can lie, and the offsets from the start of a line on are those whose line is
not an earlier one.
-/
namespace DtdConformance.Text
set_option autoImplicit false

theorem pairwise_startsAfter (base : Nat) (cs : List Char) :
    (startsAfter base cs).Pairwise (· < ·) := by
  induction cs generalizing base with
  | nil => exact .nil
  | cons c cs ih =>
    rw [startsAfter]
    split
    · exact List.pairwise_cons.mpr ⟨fun start hStart => lt_of_mem_startsAfter hStart, ih (base + 1)⟩
    · exact ih (base + 1)

section Increasing

variable {starts : List Nat}

/-- More than `n` of increasing starts are at or before an offset when the one in place `n` is. -/
theorem lt_countP_iff (hStarts : starts.Pairwise (· < ·)) (offset : Int) (n : Nat) :
    n < starts.countP (fun (start : Nat) => decide ((start : Int) ≤ offset)) ↔
      ∃ start, starts[n]? = some start ∧ (start : Int) ≤ offset := by
  induction starts generalizing n with
  | nil => simp
  | cons first starts ih =>
    obtain ⟨hFirst, hRest⟩ := List.pairwise_cons.mp hStarts
    by_cases hHere : (first : Int) ≤ offset
    · rw [List.countP_cons_of_pos (by simpa using hHere)]
      cases n with
      | zero => simp [hHere]
      | succ n => rw [Nat.add_lt_add_iff_right, ih hRest, List.getElem?_cons_succ]
    · have hLater : ∀ start ∈ first :: starts, ¬ (start : Int) ≤ offset := by
        intro start hMem
        rcases List.mem_cons.mp hMem with rfl | hMem
        · exact hHere
        · have := hFirst start hMem
          omega
      rw [List.countP_eq_zero.mpr (by simpa using hLater)]
      constructor
      · intro hLess
        cases hLess
      · rintro ⟨start, hSome, hLe⟩
        exact absurd hLe (hLater start (List.mem_of_getElem? hSome))

/-- How many starts are at or before the offset, if the number lies between the two bounds. The
range is halved until one number is left. -/
def search (starts : List Nat) (offset : Int) (low high : Nat) : Nat :=
  if low < high then
    let middle := (low + high) / 2
    if offset < starts.getD middle 0 then search starts offset low middle
    else search starts offset (middle + 1) high
  else low
termination_by high - low

theorem search_eq_countP (hStarts : starts.Pairwise (· < ·)) (offset : Int) {low high : Nat}
    (hLow : low ≤ starts.countP fun (start : Nat) => decide ((start : Int) ≤ offset))
    (hHigh : (starts.countP fun (start : Nat) => decide ((start : Int) ≤ offset)) ≤ high)
    (hBound : high ≤ starts.length) :
    search starts offset low high =
      starts.countP fun (start : Nat) => decide ((start : Int) ≤ offset) := by
  have hPlace (middle : Nat) (hMiddle : middle < starts.length) :
      (middle < starts.countP fun (start : Nat) => decide ((start : Int) ≤ offset)) ↔
        (starts.getD middle 0 : Int) ≤ offset := by
    rw [lt_countP_iff hStarts, List.getD_eq_getElem?_getD, List.getElem?_eq_getElem hMiddle]
    simp
  fun_induction search starts offset low high with
  | case1 low high hLess middle hBefore ih =>
    have hNot := mt (hPlace middle (by omega)).mp (by omega)
    exact ih hLow (by omega) (by omega)
  | case2 low high hLess middle hReached ih =>
    have hCounted := (hPlace middle (by omega)).mpr (by omega)
    exact ih (by omega) hHigh hBound
  | case3 low high hDone => omega

end Increasing

namespace LineIndex

theorem pairwise_starts (cs : List Char) : (ofText cs).starts.Pairwise (· < ·) :=
  List.pairwise_cons.mpr
    ⟨fun _ hStart => lt_of_mem_startsAfter hStart, pairwise_startsAfter 0 cs⟩

theorem lineAt_of_nonpos (index : LineIndex) {offset : Int} (h : offset ≤ 0) :
    index.lineAt offset = 1 := if_pos h

/-- The first line starts at the beginning of the text, so nothing is lost at offset zero. -/
theorem lineAt_eq_countP (cs : List Char) (offset : Nat) : (ofText cs).lineAt offset =
    (ofText cs).starts.countP fun (start : Nat) => decide ((start : Int) ≤ offset) := by
  cases offset with
  | zero =>
    have hNone :
        (startsAfter 0 cs).countP (fun (start : Nat) => decide ((start : Int) ≤ (0 : Nat))) = 0 := by
      simpa using countP_startsAfter 0 0 cs
    rw [ofText, List.countP_cons_of_pos (by simp), hNone]
    rfl
  | succ offset => exact if_neg (by omega)

theorem lt_lineAt_iff (cs : List Char) (offset n : Nat) : n < (ofText cs).lineAt offset ↔
    ∃ start, (ofText cs).starts[n]? = some start ∧ start ≤ offset := by
  rw [lineAt_eq_countP, lt_countP_iff (pairwise_starts cs)]
  simp only [Int.ofNat_le]

theorem lineAt_eq_search (cs : List Char) (offset : Nat) : (ofText cs).lineAt offset =
    search (ofText cs).starts offset 0 (ofText cs).lineCount := by
  rw [lineAt_eq_countP, lineCount, search_eq_countP (pairwise_starts cs) offset (Nat.zero_le _)
    List.countP_le_length (Nat.le_refl _)]

/-- What lies before the text counts as its beginning. -/
theorem lineAt_toNat (index : LineIndex) (offset : Int) :
    index.lineAt offset = index.lineAt offset.toNat := by
  rcases Int.le_total offset 0 with hBefore | hInside
  · rw [lineAt_of_nonpos index hBefore, lineAt_of_nonpos index (by omega)]
  · rw [Int.toNat_of_nonneg hInside]

theorem lineAt_int (cs : List Char) (offset : Int) :
    (ofText cs).lineAt offset = 1 + (cs.take offset.toNat).count '\n' := by
  rw [lineAt_toNat, lineAt_ofText]

theorem lineAt_le_lineAt (cs : List Char) {offset later : Int} (h : offset ≤ later) :
    (ofText cs).lineAt offset ≤ (ofText cs).lineAt later := by
  rw [lineAt_toNat _ offset, lineAt_toNat _ later]
  exact lineAt_mono cs (Int.toNat_le_toNat h)

theorem startOf_eq_error {index : LineIndex} {line : Int}
    (h : line < 1 ∨ (index.lineCount : Int) < line) :
    index.startOf line = .error ⟨line, index.lineCount⟩ := by
  unfold startOf
  split
  · rfl
  · next hPositive =>
    have hBeyond : index.starts.length ≤ (line - 1).toNat := by
      rw [lineCount] at h
      omega
    rw [List.getElem?_eq_none hBeyond]

theorem startOf_succ {index : LineIndex} {n start : Nat} (h : index.starts[n]? = some start) :
    index.startOf (n + 1) = .ok start := by
  have hPlace : ((n : Int) + 1 - 1).toNat = n := by omega
  rw [startOf, if_neg (by omega), hPlace, h]

/-- The start of a line is the least offset on it. -/
theorem lineAt_start {cs : List Char} {n start : Nat}
    (h : (ofText cs).starts[n]? = some start) : (ofText cs).lineAt start = n + 1 := by
  have hReached : n < (ofText cs).lineAt start :=
    (lt_lineAt_iff cs start n).mpr ⟨start, h, Nat.le_refl start⟩
  have hNext : ¬ n + 1 < (ofText cs).lineAt start := by
    rw [lt_lineAt_iff]
    rintro ⟨next, hNext, hLe⟩
    obtain ⟨hBound, hStart⟩ := List.getElem?_eq_some_iff.mp h
    obtain ⟨hNextBound, hNextStart⟩ := List.getElem?_eq_some_iff.mp hNext
    have hLess := List.pairwise_iff_getElem.mp (pairwise_starts cs) n (n + 1) hBound hNextBound
      (Nat.lt_succ_self n)
    omega
  omega

theorem le_lineAt_iff {cs : List Char} {n start : Nat}
    (h : (ofText cs).starts[n]? = some start) (offset : Nat) :
    (n + 1 : Int) ≤ (ofText cs).lineAt offset ↔ start ≤ offset := by
  have hReached := lt_lineAt_iff cs offset n
  simp only [h, Option.some.injEq, exists_eq_left'] at hReached
  rw [← hReached]
  omega

/-- The line of an offset is one more than the number of line feeds before it, whether it is counted
or searched for. It is the first line before the text and the last one behind it. A line number has
a start exactly when the text has that many lines, and an offset is on that line or a later one
exactly when it is not before this start. -/
theorem lines_ofText (cs : List Char) :
    (∀ offset : Int, (ofText cs).lineAt offset = 1 + (cs.take offset.toNat).count '\n') ∧
      (∀ distance : Nat, (ofText cs).lineAt (-distance) = 1) ∧
      (∀ distance : Nat, (ofText cs).lineAt (cs.length + distance : Nat) =
        (ofText cs).lineCount) ∧
      (∀ offset : Nat, (ofText cs).lineAt offset =
        search (ofText cs).starts offset 0 (ofText cs).lineCount) ∧
      (∀ offset later : Int, offset ≤ later →
        (ofText cs).lineAt offset ≤ (ofText cs).lineAt later) ∧
      ∀ line : Int,
        ((line < 1 ∨ ((ofText cs).lineCount : Int) < line) ∧
          (ofText cs).startOf line = .error ⟨line, (ofText cs).lineCount⟩) ∨
        ((1 ≤ line ∧ line ≤ (ofText cs).lineCount) ∧
          ∃ start : Nat, (ofText cs).startOf line = .ok start ∧
            (ofText cs).lineAt start = line ∧
            ∀ offset : Nat, line ≤ (ofText cs).lineAt offset ↔ start ≤ offset) := by
  refine ⟨lineAt_int cs, fun distance => lineAt_of_nonpos (ofText cs) (by omega),
    fun distance => ?_, lineAt_eq_search cs, fun _ _ hLe => lineAt_le_lineAt cs hLe,
    fun line => ?_⟩
  · rw [lineAt_ofText, lineCount_ofText, List.take_of_length_le (Nat.le_add_right _ _),
      Nat.add_comm]
  · by_cases hOutside : line < 1 ∨ ((ofText cs).lineCount : Int) < line
    · exact Or.inl ⟨hOutside, startOf_eq_error hOutside⟩
    · obtain ⟨n, rfl⟩ : ∃ n : Nat, line = n + 1 := ⟨(line - 1).toNat, by omega⟩
      have hBound : n < (ofText cs).starts.length := by
        rw [lineCount] at hOutside
        omega
      have hStart : (ofText cs).starts[n]? = some (ofText cs).starts[n] :=
        List.getElem?_eq_getElem hBound
      refine Or.inr ⟨by omega, _, startOf_succ hStart, ?_, fun offset => ?_⟩
      · exact congrArg Nat.cast (lineAt_start hStart)
      · exact le_lineAt_iff hStart offset

end LineIndex

end DtdConformance.Text
