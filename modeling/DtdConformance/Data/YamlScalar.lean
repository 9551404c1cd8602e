import DtdConformance.Data.Value
import DtdConformance.Text.Search

/-! # Scalars without quotes in YAML

Which values are meant by words without quotes: the words for nothing and for truth values, whole
numbers to the bases two, eight, ten and sixteen or in sixties, and fractions, which always show a
point. All other words are texts.
-/
namespace DtdConformance.Data.Yaml
set_option autoImplicit false

def isDecimal (c : Char) : Bool := '0' ≤ c && c ≤ '9'

def digitValue (c : Char) : Nat :=
  if isDecimal c then c.toNat - '0'.toNat
  else if 'a' ≤ c ∧ c ≤ 'f' then c.toNat - 'a'.toNat + 10
  else c.toNat - 'A'.toNat + 10

def isHexadecimal (c : Char) : Bool :=
  isDecimal c || ('a' ≤ c && c ≤ 'f') || ('A' ≤ c && c ≤ 'F')

def withoutMarks (cs : List Char) : List Char := cs.filter (fun c => c != '_')

def valueIn (base : Nat) (cs : List Char) : Nat :=
  (withoutMarks cs).foldl (fun n c => base * n + digitValue c) 0

/-- The value of a run of digits, which may be marked by underscores but must hold a digit. -/
def marked? (isDigit : Char → Bool) (base : Nat) (cs : List Char) : Option Nat :=
  if cs.all (fun c => isDigit c || c == '_') && !(withoutMarks cs).isEmpty
  then some (valueIn base cs) else none

def sixtieth? (cs : List Char) : Option Nat :=
  match cs with
  | [d] => if isDecimal d then some (digitValue d) else none
  | [t, d] => if '0' ≤ t ∧ t ≤ '5' ∧ isDecimal d then some (valueIn 10 cs) else none
  | _ => none

def leading? (cs : List Char) : Option Nat :=
  match cs with
  | c :: _ => if isDecimal c then marked? isDecimal 10 cs else none
  | [] => none

def sixties? (first : Nat) (parts : List (List Char)) : Option Nat :=
  parts.foldlM (fun n part => (sixtieth? part).map (60 * n + ·)) first

def natural? (cs : List Char) : Option Nat :=
  match cs with
  | ['0'] => some 0
  | '0' :: 'b' :: digits => marked? (fun c => c == '0' || c == '1') 2 digits
  | '0' :: 'x' :: digits => marked? isHexadecimal 16 digits
  | '0' :: digits =>
    if digits.all (fun c => ('0' ≤ c && c ≤ '7') || c == '_') then some (valueIn 8 digits) else none
  | _ =>
    match Text.splitOn ':' cs with
    | [digits] => leading? digits
    | first :: parts => do sixties? (← leading? first) parts
    | [] => none

/-- The exponent at the end of a fraction, which always has a sign. -/
def exponent? : List Char → Option Int
  | [] => some 0
  | e :: sign :: digits =>
    if (e = 'e' ∨ e = 'E') ∧ digits.all isDecimal ∧ !digits.isEmpty then
      if sign = '+' then some (valueIn 10 digits)
      else if sign = '-' then some (-(valueIn 10 digits : Int))
      else none
    else none
  | _ => none

/-- The value of a fraction after its sign, if there was one. A fraction with a sign does not begin
with its point. -/
def fraction? (signed : Bool) (cs : List Char) : Option Float :=
  let whole := cs.takeWhile (fun c => c != '.')
  match cs.dropWhile (fun c => c != '.') with
  | [] => none
  | _ :: rest =>
    let places := withoutMarks (rest.takeWhile (fun c => isDecimal c || c == '_'))
    let ending := rest.dropWhile (fun c => isDecimal c || c == '_')
    match exponent? ending with
    | none => none
    | some e =>
      let decimals (n : Nat) := Decimal.ofDecimal (n * Nat.pow 10 places.length + valueIn 10 places)
        (e - places.length)
      match Text.splitOn ':' whole with
      | [[]] =>
        match rest with
        | c :: _ => if isDecimal c && !signed then some (decimals 0) else none
        | [] => none
      | [digits] => (leading? digits).map decimals
      | first :: parts =>
        if ending.isEmpty then do return decimals (← sixties? (← leading? first) parts) else none
      | [] => none

def infinities : List String := [".inf", ".Inf", ".INF"]

def notNumbers : List String := [".nan", ".NaN", ".NAN"]

def unsigned? (signed : Bool) (cs : List Char) : Option (Int ⊕ Float) :=
  match natural? cs with
  | some n => some (.inl n)
  | none =>
    match fraction? signed cs with
    | some x => some (.inr x)
    | none => if infinities.contains (String.ofList cs) then some (.inr (1.0 / 0.0)) else none

def number? : List Char → Option Value
  | '-' :: cs => (unsigned? true cs).map fun n =>
    match n with
    | .inl n => .int (-n)
    | .inr x => .float (-x)
  | '+' :: cs => (unsigned? true cs).map ofUnsigned
  | cs =>
    if notNumbers.contains (String.ofList cs) then some (.float (0.0 / 0.0))
    else (unsigned? false cs).map ofUnsigned
where
  ofUnsigned : Int ⊕ Float → Value
    | .inl n => .int n
    | .inr x => .float x

/-- A word in small letters, in capital letters, or with a capital letter first. -/
def spellings (word : String) : List String := [word, word.toUpper, word.capitalize]

def nothingWords : List String := ["", "~"] ++ spellings "null"

def trueWords : List String := ["true", "yes", "on"].flatMap spellings

def falseWords : List String := ["false", "no", "off"].flatMap spellings

/-- Words with a meaning that is not supported: they stand for other mappings or for defaults. -/
def reservedWords : List String := ["<<", "="]

def plainValue? (cs : List Char) : Option Value :=
  let word := String.ofList cs
  if nothingWords.contains word then some .null
  else if trueWords.contains word then some (.bool true)
  else if falseWords.contains word then some (.bool false)
  else if reservedWords.contains word then none
  else some ((number? cs).getD (.text word))

end DtdConformance.Data.Yaml
