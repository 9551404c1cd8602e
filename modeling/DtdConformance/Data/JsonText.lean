import DtdConformance.Data.Value

/-! # Writing JSON

A value as a JSON text over several lines, in ASCII alone. Each level of nesting is indented by two
spaces; empty lists and mappings stay on their line.
-/
namespace DtdConformance.Data.Json
set_option autoImplicit false

/-- The code units of a character: one, or two halves for a large one. -/
def codeUnits (c : Char) : List Nat :=
  let n := c.toNat
  if n < 0x10000 then [n]
  else [0xD800 + (n - 0x10000) / 0x400, 0xDC00 + (n - 0x10000) % 0x400]

def writtenChar (c : Char) : List Char :=
  if c = Text.doubleQuote ∨ c = '\\' then ['\\', c]
  else if c = '\n' then ['\\', 'n']
  else if c = '\r' then ['\\', 'r']
  else if c = '\t' then ['\\', 't']
  else if c = '\x08' then ['\\', 'b']
  else if c = '\x0C' then ['\\', 'f']
  else if 0x20 ≤ c.toNat ∧ c.toNat ≤ 0x7E then [c]
  else (codeUnits c).flatMap fun unit => '\\' :: 'u' :: Text.hexDigits 4 unit

def writtenText (s : String) : String :=
  let quote := String.singleton Text.doubleQuote
  quote ++ String.ofList (s.toList.flatMap writtenChar) ++ quote

def writtenFloat (x : Float) : String :=
  if x.isNaN then "NaN"
  else if x.isInf then (if x < 0 then "-Infinity" else "Infinity")
  else Decimal.text x

def writtenKey : Value → String
  | .text s => writtenText s
  | .null => writtenText "null"
  | .bool b => writtenText (if b then "true" else "false")
  | .int n => writtenText (toString n)
  | .float x => writtenText (writtenFloat x)
  | .list _ | .mapping _ => writtenText ""

def lineStart (depth : Nat) : String := "\n" ++ String.ofList (List.replicate (2 * depth) ' ')

def enclosed (opener closer : String) (depth : Nat) (items : List String) : String :=
  if items.isEmpty then opener ++ closer
  else opener ++ lineStart (depth + 1) ++ ("," ++ lineStart (depth + 1)).intercalate items ++
    lineStart depth ++ closer

mutual

def writtenAt (depth : Nat) : Value → String
  | .null => "null"
  | .bool b => if b then "true" else "false"
  | .int n => toString n
  | .float x => writtenFloat x
  | .text s => writtenText s
  | .list items => enclosed "[" "]" depth (writtenItems (depth + 1) items)
  | .mapping entries => enclosed "\x7b" "\x7d" depth (writtenEntries (depth + 1) entries)

def writtenItems (depth : Nat) : List Value → List String
  | [] => []
  | item :: items => writtenAt depth item :: writtenItems depth items

def writtenEntries (depth : Nat) : List (Value × Value) → List String
  | [] => []
  | (key, value) :: entries =>
    (writtenKey key ++ ": " ++ writtenAt depth value) :: writtenEntries depth entries

end

def written (value : Value) : String := writtenAt 0 value

end DtdConformance.Data.Json
