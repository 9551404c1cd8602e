import DtdConformance.Decimal.Shortest

/-! # Texts of binary fractions

How a number with a fraction is written: positionally when its first digit stands between the
fourth place after the point and the sixteenth before it, and with an exponent of at least two
digits otherwise. A positional form always shows a point.
-/
namespace DtdConformance.Decimal
set_option autoImplicit false

/-- Where positional writing ends and how the other forms look. -/
structure Form where
  leastPositional : Int
  mostPositional : Int
  exponentWidth : Nat
  notANumber : String
  infinite : String
  deriving Repr, DecidableEq

def Form.standard : Form := ⟨-4, 16, 2, "nan", "inf"⟩

def zeros (n : Nat) : List Char := List.replicate n '0'

/-- The digits of a decimal, read from the first one, around the point. -/
def positional (digits : List Char) (lead : Int) : List Char :=
  if lead < 0 then '0' :: '.' :: zeros (-lead - 1).toNat ++ digits
  else
    let whole := lead.toNat + 1
    if digits.length ≤ whole then digits ++ zeros (whole - digits.length) ++ ['.', '0']
    else digits.take whole ++ '.' :: digits.drop whole

def withExponent (form : Form) (digits : List Char) (lead : Int) : List Char :=
  let exponent := Nat.toDigits 10 lead.natAbs
  let sign := if lead < 0 then '-' else '+'
  let mantissa := match digits with
    | [] => []
    | [d] => [d]
    | d :: rest => d :: '.' :: rest
  mantissa ++ 'e' :: sign :: zeros (form.exponentWidth - exponent.length) ++ exponent

def positiveText (form : Form) (m : Nat) (q : Int) (narrowBelow : Bool) : List Char :=
  let (n, k) := shortest m q narrowBelow
  let digits := Nat.toDigits 10 n
  let lead := k + (digits.length : Int) - 1
  if form.leastPositional ≤ lead ∧ lead < form.mostPositional then positional digits lead
  else withExponent form digits lead

/-- The text of a binary fraction of 64 bits: eleven bits of exponent and 52 bits of fraction
under a sign. -/
def textOfBits (form : Form) (bits : Nat) : String :=
  let hidden := Nat.pow 2 52
  let fraction := bits % hidden
  let exponent := bits / hidden % Nat.pow 2 11
  let negative := bits / Nat.pow 2 63 % 2 == 1
  let sign := if negative then "-" else ""
  if exponent = 2047 then
    if fraction = 0 then sign ++ form.infinite else form.notANumber
  else if exponent = 0 then
    if fraction = 0 then sign ++ "0.0"
    else sign ++ String.ofList (positiveText form fraction (-1074) false)
  else
    sign ++ String.ofList (positiveText form (fraction + hidden) ((exponent : Int) - 1075)
      (fraction == 0 && exponent != 1))

def text (x : Float) : String := textOfBits .standard x.toBits.toNat

/-- The binary fraction nearest to `digits * 10 ^ exponent`. Exponents far outside the range are
cut off, the number being zero or infinite there. -/
def ofDecimal (digits : Nat) (exponent : Int) : Float :=
  if digits = 0 then 0.0
  else
    let lead := exponent + (digitCount digits : Int)
    if lead > 400 then Float.ofScientific 1 false 400
    else if lead < -400 then 0.0
    else if exponent ≥ 0 then Float.ofScientific digits false exponent.toNat
    else Float.ofScientific digits true (-exponent).toNat

end DtdConformance.Decimal
