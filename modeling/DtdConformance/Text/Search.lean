/-! # Finding one text in another

What follows a given beginning, and the first place at which a text stands inside another.
-/
namespace DtdConformance.Text
set_option autoImplicit false

/-- What follows `start` in a text that begins with it. -/
def after? : List Char → List Char → Option (List Char)
  | [], cs => some cs
  | _ :: _, [] => none
  | s :: start, c :: cs => if s = c then after? start cs else none

theorem after?_eq_some_iff (start cs rest : List Char) :
    after? start cs = some rest ↔ cs = start ++ rest := by
  fun_induction after? start cs with
  | case1 cs => simp
  | case2 => simp
  | case3 start s cs ih => simp [ih]
  | case4 s start c cs hNe =>
    simp only [reduceCtorEq, List.cons_append, List.cons.injEq, false_iff, not_and]
    exact fun hEq _ => hNe hEq.symm

/-- The texts before and after the first place at which `stop` stands. -/
def splitAt? (stop : List Char) (cs : List Char) : Option (List Char × List Char) :=
  match after? stop cs with
  | some rest => some ([], rest)
  | none =>
    match cs with
    | [] => none
    | c :: cs => (splitAt? stop cs).map fun (before, rest) => (c :: before, rest)

theorem eq_append_of_splitAt? {stop cs before rest : List Char}
    (h : splitAt? stop cs = some (before, rest)) : cs = before ++ stop ++ rest := by
  induction cs generalizing before with
  | nil =>
    rw [splitAt?] at h
    split at h
    · next hAfter =>
      have hEq := (after?_eq_some_iff ..).mp hAfter
      simp_all
    · simp at h
  | cons c cs ih =>
    rw [splitAt?] at h
    split at h
    · next hAfter =>
      have hEq := (after?_eq_some_iff ..).mp hAfter
      simp_all
    · simp only [Option.map_eq_some_iff, Prod.mk.injEq, Prod.exists] at h
      obtain ⟨before', rest', hSplit, hBefore, hRest⟩ := h
      subst hBefore hRest
      rw [ih hSplit]
      simp

/-- The pieces of a text between the occurrences of one character, at least one. -/
def splitOn (separator : Char) : List Char → List (List Char)
  | [] => [[]]
  | c :: cs =>
    if c = separator then [] :: splitOn separator cs
    else match splitOn separator cs with
      | [] => [[c]]
      | piece :: pieces => (c :: piece) :: pieces

end DtdConformance.Text
