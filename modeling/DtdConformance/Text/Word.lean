import DtdConformance.Text.WordTable

/-! # Word characters

Letters and digits of every script and the underscore are word characters. The names of
declarations and start tags are made of word characters, hyphens, full stops and colons.
-/
namespace DtdConformance.Text
set_option autoImplicit false

def inRanges (ranges : List (Nat × Nat)) (n : Nat) : Bool :=
  ranges.any (fun range => range.1 ≤ n && n ≤ range.2)

def isWordChar (c : Char) : Bool :=
  if c.toNat < 128 then c.isAlphanum || c == '_' else inRanges wordRanges c.toNat

def isNameChar (c : Char) : Bool := isWordChar c || c == '-' || c == '.' || c == ':'

end DtdConformance.Text
