import DtdConformance.Text.CaseTable

/-! # Letter case

Texts in capital and in small letters, for every script that has both.
-/
namespace DtdConformance.Text
set_option autoImplicit false

/-- The image of a code point under the first run that holds it. -/
def imageInRuns (runs : List (Nat × Nat × Nat × Nat)) (n : Nat) : Option Nat :=
  runs.findSome? fun (first, last, step, image) =>
    if first ≤ n ∧ n ≤ last ∧ (n - first) % step = 0 then some (image + (n - first)) else none

def upperChar (c : Char) : List Char :=
  if c.toNat < 128 then [c.toUpper]
  else match upperExpansions.lookup c.toNat with
    | some codes => codes.map Char.ofNat
    | none => match imageInRuns upperRuns c.toNat with
      | some code => [Char.ofNat code]
      | none => [c]

/-- The small form of a letter. The dotted capital I keeps its dot as a combining mark. -/
def lowerChar (c : Char) : List Char :=
  if c.toNat < 128 then [c.toLower]
  else if c = '\u0130' then ['i', '\u0307']
  else match imageInRuns lowerRuns c.toNat with
    | some code => [Char.ofNat code]
    | none => [c]

def upper (text : String) : String := String.ofList (text.toList.flatMap upperChar)

def lower (text : String) : String := String.ofList (text.toList.flatMap lowerChar)

end DtdConformance.Text
