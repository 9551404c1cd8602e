/-! # Shortest decimals

A finite binary fraction `m * 2 ^ q` stands for every real number that rounds to it. Its shortest
decimal has the fewest digits that fall among these numbers; of two such decimals it is the nearer
one. Digits are found in exact arithmetic, on one decimal grid after another.
-/
namespace DtdConformance.Decimal
set_option autoImplicit false

structure Ratio where
  numerator : Nat
  denominator : Nat
  deriving Repr, DecidableEq

namespace Ratio

def ofScaled (m : Nat) (q : Int) : Ratio :=
  if q ≥ 0 then ⟨m * Nat.pow 2 q.toNat, 1⟩ else ⟨m, Nat.pow 2 (-q).toNat⟩

def perTenPower (r : Ratio) (k : Int) : Ratio :=
  if k ≥ 0 then ⟨r.numerator, r.denominator * Nat.pow 10 k.toNat⟩
  else ⟨r.numerator * Nat.pow 10 (-k).toNat, r.denominator⟩

def floor (r : Ratio) : Nat := r.numerator / r.denominator

def lt (r s : Ratio) : Bool := r.numerator * s.denominator < s.numerator * r.denominator

def le (r s : Ratio) : Bool := r.numerator * s.denominator ≤ s.numerator * r.denominator

end Ratio

/-- The numbers that round to a given one. The ends belong to it when `closed` is set. -/
structure RoundingInterval where
  low : Ratio
  high : Ratio
  closed : Bool
  deriving Repr, DecidableEq

def RoundingInterval.contains (interval : RoundingInterval) (r : Ratio) : Bool :=
  if interval.closed then interval.low.le r && r.le interval.high
  else interval.low.lt r && r.lt interval.high

/-- The interval of `m * 2 ^ q`. Below a power of two the gap is half as wide, unless the number
is of the least exponent. -/
def intervalOf (m : Nat) (q : Int) (narrowBelow : Bool) : RoundingInterval where
  low := if narrowBelow then .ofScaled (4 * m - 1) (q - 2) else .ofScaled (2 * m - 1) (q - 1)
  high := .ofScaled (2 * m + 1) (q - 1)
  closed := m % 2 == 0

def digitCount (n : Nat) : Nat := (Nat.toDigits 10 n).length

/-- The exponent of the first digit, found from the count of digits before the point or of zeros
after it. -/
def leadingExponent (r : Ratio) : Int :=
  if r.denominator ≤ r.numerator then (digitCount r.floor : Int) - 1
  else
    let shift := digitCount (r.denominator / r.numerator)
    let lifted := r.perTenPower (-(shift : Int))
    (digitCount lifted.floor : Int) - 1 - shift

/-- The nearer of the two neighbours of `r` on the grid of `10 ^ k` that lie in the interval; the
even one when both are as near. -/
def neighbour? (r : Ratio) (interval : RoundingInterval) (k : Int) : Option Nat :=
  let scaled := r.perTenPower k
  let below := scaled.floor
  let value (n : Nat) : Ratio := (Ratio.mk n 1).perTenPower (-k)
  let lowFits := below != 0 && interval.contains (value below)
  let highFits := interval.contains (value (below + 1))
  let twiceRest := 2 * (scaled.numerator - below * scaled.denominator)
  if lowFits && highFits then
    if twiceRest < scaled.denominator then some below
    else if scaled.denominator < twiceRest then some (below + 1)
    else if below % 2 = 0 then some below else some (below + 1)
  else if lowFits then some below
  else if highFits then some (below + 1)
  else none

/-- The first hit on the grids of `count`, `count + 1`, … digits. -/
def search (r : Ratio) (interval : RoundingInterval) (lead : Int) (count : Nat) :
    (tries : Nat) → Option (Nat × Int)
  | 0 => none
  | tries + 1 =>
    let k := lead - count + 1
    match neighbour? r interval k with
    | some n => some (n, k)
    | none => search r interval lead (count + 1) tries

def dropZeros (n : Nat) (k : Int) : (tries : Nat) → Nat × Int
  | 0 => (n, k)
  | tries + 1 => if n != 0 && n % 10 == 0 then dropZeros (n / 10) (k + 1) tries else (n, k)

/-- The digits and the exponent of the last one of the shortest decimal of a binary fraction of 53
bits. Seventeen digits always suffice. -/
def shortest (m : Nat) (q : Int) (narrowBelow : Bool) : Nat × Int :=
  let r := Ratio.ofScaled m q
  match search r (intervalOf m q narrowBelow) (leadingExponent r) 1 17 with
  | some (n, k) => dropZeros n k 20
  | none => (0, 0)

end DtdConformance.Decimal
