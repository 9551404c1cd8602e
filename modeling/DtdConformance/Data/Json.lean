import DtdConformance.Data.Value

/-! # JSON texts

Reading of JSON with the usual extensions for numbers that are not finite. A number with a
fraction or an exponent is a binary fraction, any other one a whole number of any size. Control
characters may not stand in a string.
-/
namespace DtdConformance.Data.Json
set_option autoImplicit false

def isSpace (c : Char) : Bool := c == ' ' || c == '\t' || c == '\n' || c == '\r'

def skipSpace (cs : List Char) : List Char := cs.dropWhile isSpace

def isAsciiDigit (c : Char) : Bool := '0' ≤ c && c ≤ '9'

def hexValue? (c : Char) : Option Nat :=
  if '0' ≤ c ∧ c ≤ '9' then some (c.toNat - '0'.toNat)
  else if 'a' ≤ c ∧ c ≤ 'f' then some (c.toNat - 'a'.toNat + 10)
  else if 'A' ≤ c ∧ c ≤ 'F' then some (c.toNat - 'A'.toNat + 10)
  else none

/-- The code unit that four hexadecimal digits stand for. -/
def codeUnit? : List Char → Option (Nat × List Char)
  | a :: b :: c :: d :: rest => do
    let a ← hexValue? a
    let b ← hexValue? b
    let c ← hexValue? c
    let d ← hexValue? d
    return (((a * 16 + b) * 16 + c) * 16 + d, rest)
  | _ => none

/-- The character of an escape whose backslash and letter have been read. Two escaped halves make
one character; a lone half is replaced. -/
def unicodeEscape? (cs : List Char) : Option (Char × List Char) := do
  let (high, rest) ← codeUnit? cs
  if 0xD800 ≤ high ∧ high < 0xDC00 then
    match rest with
    | '\\' :: 'u' :: more =>
      match codeUnit? more with
      | some (low, rest') =>
        if 0xDC00 ≤ low ∧ low < 0xE000 then
          return (Char.ofNat (0x10000 + (high - 0xD800) * 0x400 + (low - 0xDC00)), rest')
        else return ('\uFFFD', rest)
      | none => return ('\uFFFD', rest)
    | _ => return ('\uFFFD', rest)
  else if 0xDC00 ≤ high ∧ high < 0xE000 then return ('\uFFFD', rest)
  else return (Char.ofNat high, rest)

def simpleEscape? (c : Char) : Option Char :=
  if c = Text.doubleQuote ∨ c = '\\' ∨ c = '/' then some c
  else if c = 'b' then some '\x08'
  else if c = 'f' then some '\x0C'
  else if c = 'n' then some '\n'
  else if c = 'r' then some '\r'
  else if c = 't' then some '\t'
  else none

/-- The rest of a string whose opening quote has been read. The fuel bounds the number of its
characters, the accumulator holds them in reverse. -/
def stringRest (fuel : Nat) (read : List Char) (cs : List Char) : Option (String × List Char) :=
  match fuel, cs with
  | 0, _ | _, [] => none
  | fuel + 1, c :: rest =>
    if c = Text.doubleQuote then some (String.ofList read.reverse, rest)
    else if c = '\\' then
      match rest with
      | [] => none
      | 'u' :: rest =>
        match unicodeEscape? rest with
        | some (c, rest) => stringRest fuel (c :: read) rest
        | none => none
      | e :: rest =>
        match simpleEscape? e with
        | some c => stringRest fuel (c :: read) rest
        | none => none
    else if c.toNat < 0x20 then none
    else stringRest fuel (c :: read) rest

def natOfDigits (cs : List Char) : Nat := cs.foldl (fun n c => 10 * n + (c.toNat - '0'.toNat)) 0

def fraction (cs : List Char) : List Char × List Char :=
  match cs with
  | '.' :: rest =>
    let digits := rest.takeWhile isAsciiDigit
    if digits.isEmpty then ([], cs) else (digits, rest.dropWhile isAsciiDigit)
  | _ => ([], cs)

def exponent? (cs : List Char) : Option (Int × List Char) :=
  match cs with
  | c :: rest =>
    if c = 'e' ∨ c = 'E' then
      let (negative, unsigned) := match rest with
        | '-' :: more => (true, more)
        | '+' :: more => (false, more)
        | _ => (false, rest)
      let digits := unsigned.takeWhile isAsciiDigit
      if digits.isEmpty then none
      else
        let n : Int := natOfDigits digits
        some (if negative then -n else n, unsigned.dropWhile isAsciiDigit)
    else none
  | [] => none

def number? (negative : Bool) (cs : List Char) : Option (Value × List Char) :=
  let whole := match cs with
    | '0' :: _ => ['0']
    | _ => cs.takeWhile isAsciiDigit
  if whole.isEmpty then none
  else
    let afterWhole := cs.drop whole.length
    let (decimals, afterFraction) := fraction afterWhole
    let sign (x : Float) : Float := if negative then -x else x
    match exponent? afterFraction with
    | some (e, rest) =>
      some (.float (sign (Decimal.ofDecimal (natOfDigits (whole ++ decimals))
        (e - (decimals.length : Int)))), rest)
    | none =>
      if decimals.isEmpty then
        let n : Int := natOfDigits whole
        some (.int (if negative then -n else n), afterFraction)
      else some (.float (sign (Decimal.ofDecimal (natOfDigits (whole ++ decimals))
        (-(decimals.length : Int)))), afterFraction)

def dropWord? (word : String) (cs : List Char) : Option (List Char) :=
  if cs.take word.length = word.toList then some (cs.drop word.length) else none

def word? (cs : List Char) : Option (Value × List Char) :=
  let words : List (String × Value) := [("null", .null), ("true", .bool true),
    ("false", .bool false), ("NaN", .float (0.0 / 0.0)), ("Infinity", .float (1.0 / 0.0)),
    ("-Infinity", .float (-1.0 / 0.0))]
  words.findSome? fun (word, value) => (dropWord? word cs).map fun rest => (value, rest)

mutual

/-- The value at the front of a text that begins with no space. The fuel bounds the number of
values. -/
def value? (fuel : Nat) (cs : List Char) : Option (Value × List Char) :=
  match fuel with
  | 0 => none
  | fuel + 1 =>
    match cs with
    | [] => none
    | c :: rest =>
      if c = Text.doubleQuote then
        (stringRest (rest.length + 1) [] rest).map fun (s, rest) => (.text s, rest)
      else if c = '[' then
        match skipSpace rest with
        | ']' :: rest => some (.list [], rest)
        | inside => (items? fuel [] inside).map fun (items, rest) => (.list items, rest)
      else if c = '\x7b' then
        match skipSpace rest with
        | '\x7d' :: rest => some (.mapping [], rest)
        | inside => (entries? fuel [] inside).map fun (entries, rest) => (.mapping entries, rest)
      else
        match word? cs with
        | some found => some found
        | none => if c = '-' then number? true rest else number? false cs

def items? (fuel : Nat) (read : List Value) (cs : List Char) : Option (List Value × List Char) :=
  match fuel with
  | 0 => none
  | fuel + 1 =>
    match value? fuel cs with
    | none => none
    | some (item, rest) =>
      match skipSpace rest with
      | ',' :: rest => items? fuel (item :: read) (skipSpace rest)
      | ']' :: rest => some ((item :: read).reverse, rest)
      | _ => none

def entries? (fuel : Nat) (read : List (Value × Value)) (cs : List Char) :
    Option (List (Value × Value) × List Char) :=
  match fuel with
  | 0 => none
  | fuel + 1 =>
    match cs with
    | [] => none
    | c :: rest =>
      if c != Text.doubleQuote then none
      else
        match stringRest (rest.length + 1) [] rest with
        | none => none
        | some (key, rest) =>
          match skipSpace rest with
          | ':' :: rest =>
            match value? fuel (skipSpace rest) with
            | none => none
            | some (value, rest) =>
              let read := Value.insertEntry read (.text key) value
              match skipSpace rest with
              | ',' :: rest => entries? fuel read (skipSpace rest)
              | '\x7d' :: rest => some (read, rest)
              | _ => none
          | _ => none

end

def read? (cs : List Char) : Option Value :=
  match value? (2 * cs.length + 2) (skipSpace cs) with
  | some (value, rest) => if (skipSpace rest).isEmpty then some value else none
  | none => none

end DtdConformance.Data.Json
