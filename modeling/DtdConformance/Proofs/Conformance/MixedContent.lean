import Mathlib.Data.List.Infix
import Mathlib.Data.List.Sort
import DtdConformance.Conformance.Finding
import DtdConformance.Proofs.Dtd.InlineComment

/-! # Mixed content

A mixed content model is the character data mark with alternatives after it. The alternatives are
found again whatever blanks stand between them: each counts once, at its first place, and an empty
one does not count. An element of mixed content has one problem for every child that is none of
them.
-/
namespace DtdConformance.Dtd
set_option autoImplicit false

open Text

/-! ## First places -/

/-- The first list has the members of the second that are not empty, each once and in the order in
which they come first. -/
structure ListsFirst (listed alternatives : List String) : Prop where
  mem_iff : ∀ name, name ∈ listed ↔ name ≠ "" ∧ name ∈ alternatives
  ordered : listed.Pairwise fun name other =>
    alternatives.idxOf name < alternatives.idxOf other

theorem ListsFirst.unique {listed other alternatives : List String}
    (h : ListsFirst listed alternatives) (hOther : ListsFirst other alternatives) :
    other = listed := by
  let Before (name other : String) : Prop := alternatives.idxOf name < alternatives.idxOf other
  have : Std.Irrefl Before := ⟨fun _ => Nat.lt_irrefl _⟩
  have : Std.Antisymm Before := ⟨fun _ _ hLess hMore => absurd hMore (Nat.lt_asymm hLess)⟩
  exact List.Pairwise.eq_of_mem_iff (r := Before) hOther.ordered h.ordered fun name =>
    (hOther.mem_iff name).trans (h.mem_iff name).symm

/-! ## The written form -/

/-- An alternative of a mixed content model: a name, or nothing at all. -/
structure IsAlternative (name : String) : Prop where
  nameChars : ∀ c ∈ name.toList, isNameChar c = true
  unhyphened : ¬ hyphens <:+: name.toList

instance (name : String) : Decidable (IsAlternative name) :=
  decidable_of_iff (name.toList.all isNameChar = true ∧ ¬ hyphens <:+: name.toList)
    ⟨fun h => ⟨List.all_eq_true.mp h.1, h.2⟩, fun h => ⟨List.all_eq_true.mpr h.1, h.2⟩⟩

def groupEnd (starred : Bool) : List Char := if starred then [')', '*'] else [')']

/-- The alternatives, each with a bar before it. -/
def barred (alternatives : List String) : List Char :=
  (alternatives.map String.toList).flatMap ('|' :: ·)

/-- A mixed content model without blanks. -/
def mixedSpec (alternatives : List String) (starred : Bool) : List Char :=
  characterDataMark ++ (barred alternatives ++ groupEnd starred)

theorem dropGroupEnd_append (cs : List Char) (starred : Bool) :
    dropGroupEnd (cs ++ groupEnd starred) = cs := by
  cases starred <;> simp [dropGroupEnd, groupEnd]

theorem head?_barred_append (alternatives : List String) (starred : Bool) :
    ∀ c ∈ (barred alternatives ++ groupEnd starred).head?, c ∉ hyphens := by
  cases alternatives with
  | nil => cases starred <;> simp [barred, groupEnd, hyphens]
  | cons name alternatives =>
    intro c hHead
    cases hHead
    decide

theorem mixedSpec_eq_text_iff (alternatives : List String) (starred : Bool) :
    mixedSpec alternatives starred = characterDataMark ++ [')'] ↔
      alternatives = [] ∧ starred = false := by
  rw [mixedSpec, List.append_cancel_left_eq]
  cases alternatives with
  | nil => cases starred <;> simp [barred, groupEnd]
  | cons name alternatives => simp [barred]

section

variable {alternatives : List String} (hAlternatives : ∀ name ∈ alternatives, IsAlternative name)
include hAlternatives

theorem isBlank_mixedSpec (starred : Bool) :
    ∀ c ∈ mixedSpec alternatives starred, isBlank c = false := by
  intro c hMem
  rcases List.mem_append.mp hMem with hMark | hMem
  · exact (removeBlanks_eq_self_iff _).mp (by decide) c hMark
  rcases List.mem_append.mp hMem with hBarred | hEnd
  · simp only [barred, List.mem_flatMap, List.mem_map, List.mem_cons] at hBarred
    obtain ⟨_, ⟨name, hName, rfl⟩, rfl | hChar⟩ := hBarred
    · decide
    · exact isBlank_eq_false_of_isNameChar ((hAlternatives name hName).nameChars c hChar)
  · exact (removeBlanks_eq_self_iff _).mp (by cases starred <;> decide) c hEnd

theorem not_isInfix_barred (starred : Bool) :
    ¬ hyphens <:+: barred alternatives ++ groupEnd starred := by
  induction alternatives with
  | nil => exact (by decide : ∀ starred, ¬ hyphens <:+: barred [] ++ groupEnd starred) starred
  | cons name alternatives ih =>
    rw [List.forall_mem_cons] at hAlternatives
    have hName : ¬ hyphens <:+: '|' :: name.toList := by
      rw [List.infix_cons_iff, not_or]
      exact ⟨not_isPrefix_of_ne (by decide) _, hAlternatives.1.unhyphened⟩
    have hAll := not_isInfix_append hName (ih hAlternatives.2)
      (head?_barred_append alternatives starred)
    rwa [← List.append_assoc] at hAll

theorem not_isInfix_mixedSpec (starred : Bool) : ¬ hyphens <:+: mixedSpec alternatives starred :=
  not_isInfix_append (by decide) (not_isInfix_barred hAlternatives starred)
    (head?_barred_append alternatives starred)

/-- The names of a mixed content model are its alternatives that are not empty. -/
theorem mixedNames_mixedSpec (starred : Bool) :
    mixedNames (mixedSpec alternatives starred) =
      (alternatives.filter fun name => !name.toList.isEmpty).eraseDups := by
  have hPieces : ∀ piece ∈ alternatives.map String.toList, '|' ∉ piece := by
    rw [List.forall_mem_map]
    exact fun name hName => not_mem_of_nameChar (hAlternatives name hName).nameChars (by decide)
  have hSplit : splitOn '|' (barred alternatives) = [] :: alternatives.map String.toList :=
    splitOn_append_flatMap List.not_mem_nil hPieces
  rw [mixedNames, mixedSpec, List.drop_left, dropGroupEnd_append, hSplit,
    List.filter_cons_of_neg (by simp), List.filter_map, List.map_map]
  congr 1
  simp [Function.comp_def]

theorem listsFirst_mixedNames (starred : Bool) :
    ListsFirst (mixedNames (mixedSpec alternatives starred)) alternatives := by
  rw [mixedNames_mixedSpec hAlternatives]
  refine ⟨fun name => ?_, pairwise_eraseDups_filter _ _⟩
  rw [List.mem_eraseDups, List.mem_filter, and_comm]
  simp

variable {written : List Char} {starred : Bool}

theorem removeBlanks_bareSpec (hWritten : Spaced (mixedSpec alternatives starred) written) :
    removeBlanks (bareSpec written) = mixedSpec alternatives starred := by
  have hBlanks : removeBlanks written = mixedSpec alternatives starred :=
    (spaced_iff (isBlank_mixedSpec hAlternatives starred)).mp hWritten
  have hComments : ¬ hyphens <:+: written := by
    intro hIn
    have hMark : removeBlanks hyphens = hyphens := by decide
    have hKept := isInfix_removeBlanks ((removeBlanks_eq_self_iff _).mp hMark) hIn
    rw [hBlanks] at hKept
    exact not_isInfix_mixedSpec hAlternatives starred hKept
  rw [bareSpec_of_not_isInfix hComments, removeBlanks_trim, hBlanks]

theorem ruleOf_bareSpec (hWritten : Spaced (mixedSpec alternatives starred) written) :
    ruleOf (bareSpec written) =
      if alternatives = [] ∧ starred = false then .ok .text
      else .ok (.mixed (mixedNames (mixedSpec alternatives starred))) := by
  have hBare := removeBlanks_bareSpec hAlternatives hWritten
  have hMark : characterDataMark <+: removeBlanks (bareSpec written) :=
    hBare ▸ List.prefix_append _ _
  rw [ruleOf_of_mark hMark, hBare, ← apply_ite]
  simp only [mixedSpec_eq_text_iff]

end

end DtdConformance.Dtd

namespace DtdConformance.Conformance
set_option autoImplicit false

open Document Dtd

theorem findingsAt_of_mixed {table : Table} {definition : Definition} {listed : List String}
    {e : Element (Option Nat)} (hFind : table.find? e.name = some definition)
    (hRule : definition.rule = .mixed listed) (previewLength : Int) :
    findingsAt table previewLength e =
      (e.children.filter fun child => child.name ∉ listed).map fun child =>
        ⟨e.name, e.label, some definition.line, .unexpectedChild child.name listed⟩ := by
  simp [findingsAt, hFind, problems, hRule, Definition.allowsMixedChild, Definition.allowed]

/-- The character data mark without an alternative and without an asterisk stands for text alone.
All other forms stand for mixed content with the alternatives that are not empty, in the order of
their first places, whatever blanks are put into them. The children of such an element that have
another name are its findings, in the order in which they stand. -/
theorem mixed_content (name : String) (line : Int) {alternatives : List String}
    (hAlternatives : ∀ alternative ∈ alternatives, IsAlternative alternative) (starred : Bool)
    {written : List Char} (hWritten : Text.Spaced (mixedSpec alternatives starred) written) :
    let found := define name written line
    found.2 = none ∧
      (alternatives = [] ∧ starred = false → found.1.rule = .text) ∧
      (alternatives ≠ [] ∨ starred = true → ∃ listed, ListsFirst listed alternatives ∧
        found.1.rule = .mixed listed ∧
        (∀ child, found.1.allowsMixedChild child = true ↔ child ≠ "" ∧ child ∈ alternatives) ∧
        ∀ (table : Table) (previewLength : Int) (e : Element (Option Nat)),
          table.find? e.name = some found.1 → findingsAt table previewLength e =
            (e.children.filter fun child => child.name = "" ∨ child.name ∉ alternatives).map
              fun child =>
                ⟨e.name, e.label, some line, .unexpectedChild child.name listed⟩) := by
  intro found
  have hRule := ruleOf_bareSpec hAlternatives hWritten
  by_cases hText : alternatives = [] ∧ starred = false
  · rw [if_pos hText] at hRule
    have hFound : found = _ := define_of_ruleOf_eq_ok hRule name line
    refine ⟨by rw [hFound], fun _ => by rw [hFound], fun hMore => ?_⟩
    rcases hMore with hSome | hStar
    · exact absurd hText.1 hSome
    · cases hText.2.symm.trans hStar
  · rw [if_neg hText] at hRule
    have hFound : found = _ := define_of_ruleOf_eq_ok hRule name line
    have hListed := listsFirst_mixedNames hAlternatives starred
    generalize mixedNames (mixedSpec alternatives starred) = listed at hListed hFound
    refine ⟨by rw [hFound], fun hBoth => absurd hBoth hText, fun _ => ⟨listed, hListed,
      by rw [hFound], fun child => ?_, fun table previewLength e hFind => ?_⟩⟩
    · rw [← hListed.mem_iff, hFound]
      simp [Definition.allowsMixedChild, Definition.allowed]
    · rw [findingsAt_of_mixed hFind (by rw [hFound]), hFound]
      congr 1
      refine List.filter_congr fun child _ => ?_
      rw [decide_eq_decide, hListed.mem_iff, not_and_or, not_not]

/-- An empty alternative, a name that is listed twice, blanks and a line feed. -/
def noteSpec : List Char := "( #PCDATA | b | | a-b\n| b ) *".toList

def noteAlternatives : List String := ["b", "", "a-b", "b"]

/-- A note with an emphasis between two children that may stand in it. -/
def note : Element (Option Nat) :=
  ⟨"note", some 7, .element "b" (some 8) .done (.text ['x'] (.element "em" (some 9) .done
    (.element "a-b" (some 9) .done .done)))⟩

theorem mixed_content_of_note :
    (∀ alternative ∈ noteAlternatives, IsAlternative alternative) ∧
      Text.Spaced (mixedSpec noteAlternatives true) noteSpec ∧
      (define "note" noteSpec 3).1.rule = .mixed ["b", "a-b"] ∧
      findingsAt (Table.empty.insert (define "note" noteSpec 3).1) 20 note =
        [⟨"note", some 7, some 3, .unexpectedChild "em" ["b", "a-b"]⟩] := by
  have hAlternatives : ∀ alternative ∈ noteAlternatives, IsAlternative alternative := by
    decide +kernel
  have hWritten : Text.Spaced (mixedSpec noteAlternatives true) noteSpec :=
    (Text.spaced_iff (isBlank_mixedSpec hAlternatives true)).mpr (by decide +kernel)
  obtain ⟨-, -, hMixed⟩ := mixed_content "note" 3 hAlternatives true hWritten
  obtain ⟨listed, hListed, hRule, -, hFindings⟩ := hMixed (.inr rfl)
  have hNames : ListsFirst ["b", "a-b"] noteAlternatives := by
    have hRead : mixedNames (mixedSpec noteAlternatives true) = ["b", "a-b"] := by decide +kernel
    exact hRead ▸ listsFirst_mixedNames hAlternatives true
  obtain rfl := hNames.unique hListed
  have hName : note.name = (define "note" noteSpec 3).1.name := (name_define ..).symm
  have hFind : (Table.empty.insert (define "note" noteSpec 3).1).find? note.name =
      some (define "note" noteSpec 3).1 := by
    rw [hName]
    exact Table.find?_insert_self _ _
  refine ⟨hAlternatives, hWritten, hRule, ?_⟩
  rw [hFindings _ 20 note hFind]
  decide +kernel

end DtdConformance.Conformance
