import DtdConformance.Text.Blank
import DtdConformance.Text.DigitTable

/-! # Integers in text

The value of a numeral: decimal digits of any script, a sign before them, single underscores
between them and padding around the whole.
-/
namespace DtdConformance.Text
set_option autoImplicit false

/-- The value of a decimal digit of any script. -/
def digitValue? (c : Char) : Option Nat :=
  digitZeros.findSome? fun first =>
    if first ≤ c.toNat ∧ c.toNat < first + 10 then some (c.toNat - first) else none

def isDigit (c : Char) : Bool := (digitValue? c).isSome

/-- The value of a run of digits in which one underscore may stand between two digits. The flag
says that a digit has just been read. -/
def digitsValue? (afterDigit : Bool) (value : Nat) : List Char → Option Nat
  | [] => if afterDigit then some value else none
  | c :: cs =>
    match digitValue? c with
    | some d => digitsValue? true (10 * value + d) cs
    | none => if c = '_' ∧ afterDigit = true then digitsValue? false value cs else none

def signedValue? : List Char → Option Int
  | '-' :: cs => (digitsValue? false 0 cs).map (fun n => -(n : Int))
  | '+' :: cs => (digitsValue? false 0 cs).map (fun n => (n : Int))
  | cs => (digitsValue? false 0 cs).map (fun n => (n : Int))

/-- A blank that may stand around a numeral. The controls that separate records may not. -/
def isPadding (c : Char) : Bool := isBlank c && !(0x1C ≤ c.toNat && c.toNat ≤ 0x1F)

def integer? (cs : List Char) : Option Int :=
  signedValue? ((cs.dropWhile isPadding).reverse.dropWhile isPadding).reverse

end DtdConformance.Text
