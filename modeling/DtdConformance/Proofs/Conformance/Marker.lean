import DtdConformance.Conformance.Diagnostic
import DtdConformance.Proofs.Text.Character
import DtdConformance.Proofs.Text.Numeral

/-! # Reading markers back

A diagnostic is written with its lines in front, and the lines and the message can be told apart
again. This needs a message that begins neither with a blank nor, when no line of the declarations
is written, with the marker of such a line. A text that begins with neither a blank nor a bracket has
no marker.
-/
namespace DtdConformance.Conformance
set_option autoImplicit false

open Text

def OpensWithMarker (cs : List Char) : Prop :=
  ∃ digits rest, digits ≠ [] ∧ (∀ c ∈ digits, isDigit c = true) ∧
    cs = declarationMarker ++ (digits ++ ']' :: rest)

structure Diagnostic.Legible (diagnostic : Diagnostic) : Prop where
  documentLine : ∀ line ∈ diagnostic.documentLine, 0 ≤ line
  declarationLine : ∀ line ∈ diagnostic.declarationLine, 0 < line
  unspaced : ∀ c ∈ diagnostic.message.toList.head?, isBlank c = false
  unmarked : diagnostic.declarationLine = none → ¬ OpensWithMarker diagnostic.message.toList

/-! ## Markers -/

theorem lineChars_natCast (n : Nat) :
    Diagnostic.lineChars (some (n : Int)) = Nat.toDigits 10 n := Nat.toList_repr

theorem toDigits_ne_nil (n : Nat) : Nat.toDigits 10 n ≠ [] := by
  intro hNil
  have hValue := digitsValue?_toDigits n
  rw [hNil] at hValue
  cases hValue

theorem digitsInMarker?_toDigits (n : Nat) (rest : List Char) :
    digitsInMarker? (Nat.toDigits 10 n ++ ']' :: rest) = some ((n : Int), rest) := by
  have hDigits : ∀ c ∈ Nat.toDigits 10 n, isDigit c = true := fun c => isDigit_of_mem_toDigits
  have hBracket : ∀ c ∈ (']' :: rest).head?, isDigit c = false := by
    rintro c ⟨⟩
    decide
  rw [digitsInMarker?, dropWhile_run hDigits hBracket, takeWhile_run hDigits hBracket,
    digitsValue?_toDigits]
  rfl

theorem documentMarker?_lineChars {line : Option Int} (h : ∀ n ∈ line, 0 ≤ n)
    (rest : List Char) :
    documentMarker? (documentMarker ++ (Diagnostic.lineChars line ++ ']' :: rest)) =
      some (line, rest) := by
  rw [documentMarker?, (after?_eq_some_iff ..).mpr rfl, Option.bind_some]
  cases line with
  | none => rfl
  | some line =>
    obtain ⟨n, rfl⟩ := Int.eq_ofNat_of_zero_le (h line rfl)
    rw [lineChars_natCast]
    split
    · next hUnknown =>
      -- A line number does not begin with the sign for an unknown line.
      obtain ⟨c, digits, hDigits⟩ := List.exists_cons_of_ne_nil (toDigits_ne_nil n)
      have hDigit : isDigit c = true := by
        apply isDigit_of_mem_toDigits
        rw [hDigits]
        exact List.mem_cons_self
      rw [hDigits] at hUnknown
      obtain ⟨rfl, _⟩ := List.cons.inj hUnknown
      cases hDigit.symm.trans (show isDigit '?' = false by decide)
    · rw [digitsInMarker?_toDigits]
      rfl

theorem declarationMarker?_lineChars {line : Int} (h : 0 < line) (rest : List Char) :
    declarationMarker? (declarationMarker ++ (Diagnostic.lineChars (some line) ++ ']' :: rest)) =
      some (line, rest) := by
  obtain ⟨n, rfl⟩ := Int.eq_ofNat_of_zero_le (Int.le_of_lt h)
  rw [declarationMarker?, (after?_eq_some_iff ..).mpr rfl, Option.bind_some, lineChars_natCast,
    digitsInMarker?_toDigits]

theorem opensWithMarker_of_declarationMarker? {cs rest : List Char} {line : Int}
    (h : declarationMarker? cs = some (line, rest)) : OpensWithMarker cs := by
  obtain ⟨inside, hAfter, hDigits⟩ := Option.bind_eq_some_iff.mp h
  have hMarker := (after?_eq_some_iff ..).mp hAfter
  unfold digitsInMarker? at hDigits
  split at hDigits
  · next after hDrop =>
    obtain ⟨n, hValue, _⟩ := Option.map_eq_some_iff.mp hDigits
    refine ⟨inside.takeWhile isDigit, after, ?_, fun c hMem => List.mem_takeWhile_imp hMem, ?_⟩
    · intro hNil
      rw [hNil] at hValue
      cases hValue
    · rw [hMarker, ← hDrop, List.takeWhile_append_dropWhile]
  · cases hDigits

theorem declarationMarker?_eq_none {cs : List Char} (h : ¬ OpensWithMarker cs) :
    declarationMarker? cs = none := by
  cases hMarker : declarationMarker? cs with
  | none => rfl
  | some found => exact absurd (opensWithMarker_of_declarationMarker? hMarker) h

/-! ## Diagnostics -/

theorem trimLeft_of_head? {cs : List Char} (h : ∀ c ∈ cs.head?, isBlank c = false) :
    trimLeft cs = cs := by
  cases cs with
  | nil => rfl
  | cons c cs => rw [trimLeft, List.dropWhile_cons_of_neg (by simp [h c rfl])]

theorem trimLeft_space {cs : List Char} (h : ∀ c ∈ cs.head?, isBlank c = false) :
    trimLeft (' ' :: cs) = cs := by
  rw [trimLeft, List.dropWhile_cons_of_pos (by decide)]
  exact trimLeft_of_head? h

namespace Diagnostic

theorem chars_of_known {diagnostic : Diagnostic} {line : Int}
    (h : diagnostic.declarationLine = some line) (hLine : 0 < line) :
    diagnostic.chars = documentMarker ++ (lineChars diagnostic.documentLine ++ ']' :: ' ' ::
      (declarationMarker ++ (lineChars (some line) ++ ']' :: ' ' ::
        diagnostic.message.toList))) := by
  have hNonzero : line ≠ 0 := by omega
  simp only [chars, markers, h, if_neg hNonzero, List.append_assoc, List.cons_append,
    List.nil_append]

theorem chars_of_unknown {diagnostic : Diagnostic} (h : diagnostic.declarationLine = none) :
    diagnostic.chars = documentMarker ++ (lineChars diagnostic.documentLine ++ ']' :: ' ' ::
      diagnostic.message.toList) := by
  simp only [chars, markers, h, List.append_assoc, List.cons_append, List.nil_append]

end Diagnostic

theorem Diagnostic.Legible.ofText_render {diagnostic : Diagnostic} (h : diagnostic.Legible) :
    Located.ofText diagnostic.render = ⟨diagnostic, true⟩ := by
  obtain ⟨documentLine, declarationLine, message⟩ := diagnostic
  rw [Located.ofText, Diagnostic.render, String.toList_ofList]
  cases declarationLine with
  | none =>
    have hUnmarked := declarationMarker?_eq_none (h.unmarked rfl)
    rw [Diagnostic.chars_of_unknown rfl, Located.ofChars,
      documentMarker?_lineChars h.documentLine]
    dsimp only
    rw [trimLeft_space h.unspaced, hUnmarked]
    dsimp only
    rw [String.ofList_toList]
  | some line =>
    have hLine : 0 < line := h.declarationLine line rfl
    have hBracket : ∀ c ∈ (declarationMarker ++ (Diagnostic.lineChars (some line) ++
        ']' :: ' ' :: message.toList)).head?, isBlank c = false := by
      rintro c ⟨⟩
      decide
    rw [Diagnostic.chars_of_known rfl hLine, Located.ofChars,
      documentMarker?_lineChars h.documentLine]
    dsimp only
    rw [trimLeft_space hBracket, declarationMarker?_lineChars hLine]
    dsimp only
    rw [trimLeft_space h.unspaced, String.ofList_toList]

theorem ofText_of_head? {text : String}
    (h : ∀ c ∈ text.toList.head?, isBlank c = false ∧ c ≠ '[') :
    Located.ofText text = ⟨⟨none, none, text⟩, false⟩ := by
  have hNone (inside : List Char) : after? ('[' :: inside) text.toList = none := by
    rw [Option.eq_none_iff_forall_ne_some]
    intro rest hSome
    rw [(after?_eq_some_iff ..).mp hSome] at h
    exact (h '[' rfl).2 rfl
  have hDocument : documentMarker? text.toList = none := by
    rw [documentMarker?, documentMarker, hNone, Option.bind_none]
  have hDeclaration : declarationMarker? text.toList = none := by
    rw [declarationMarker?, declarationMarker, hNone, Option.bind_none]
  rw [Located.ofText, Located.ofChars, hDocument]
  dsimp only
  rw [trimLeft_of_head? fun c hHead => (h c hHead).1, hDeclaration]
  dsimp only
  rw [String.ofList_toList]

end DtdConformance.Conformance
