import DtdConformance.Data.YamlScalar
import DtdConformance.Text.LineEnding
import DtdConformance.Text.Quoted

/-! # YAML texts

Reading of a single document in YAML: mappings and sequences set out by indentation or between
brackets, scalars with quotes or without, and comments. Tags, anchors, block scalars and explicit
keys are not supported.
-/
namespace DtdConformance.Data.Yaml
set_option autoImplicit false

def isBreak (c : Char) : Bool := c == '\n' || c == '\x85' || c == '\u2028' || c == '\u2029'

def atBlank : List Char → Bool
  | [] => true
  | c :: _ => c == ' ' || c == '\t' || isBreak c

def isAllowed (c : Char) : Bool :=
  let n := c.toNat
  c == '\t' || c == '\n' || (0x20 ≤ n && n ≤ 0x7E) || n == 0x85 ||
    (0xA0 ≤ n && n ≤ 0xFFFD) || 0x10000 ≤ n

/-- A place in a document: what follows, and the column of its first character. -/
structure Place where
  rest : List Char
  column : Nat
  deriving Repr, DecidableEq

/-- What follows spaces, comments and line breaks, and whether a line was ended. -/
def skipGap (ended inComment : Bool) (column : Nat) : List Char → Bool × Place
  | [] => (ended, ⟨[], column⟩)
  | c :: cs =>
    if isBreak c then skipGap true false 0 cs
    else if inComment || c == ' ' then skipGap ended inComment (column + 1) cs
    else if c == '#' then skipGap ended true (column + 1) cs
    else (ended, ⟨c :: cs, column⟩)

def gap (column : Nat) (cs : List Char) : Bool × Place := skipGap false false column cs

/-- What follows where the column does not matter. -/
def skip (cs : List Char) : List Char := (gap 0 cs).2.rest

def isMarker (mark : Char) (cs : List Char) : Bool :=
  cs.take 3 == [mark, mark, mark] && atBlank (cs.drop 3)

/-- The document ends here: nothing follows, or a line that begins with a marker. -/
def Place.isEnd (place : Place) : Bool :=
  place.rest.isEmpty ||
    place.column == 0 && (isMarker '-' place.rest || isMarker '.' place.rest)

def isBracket (c : Char) : Bool :=
  c == ',' || c == '[' || c == ']' || c == '\x7b' || c == '\x7d'

/-- A scalar without quotes ends before these characters, inside brackets or outside. -/
def endsPlain (inBrackets : Bool) : List Char → Bool
  | [] => true
  | c :: cs =>
    isBreak c || c == '\t' ||
      (c == ':' && (atBlank cs || inBrackets && (cs.head?.map isBracket).getD false)) ||
      (inBrackets && (c == '?' || isBracket c))

def beginsPlain (inBrackets : Bool) : List Char → Bool
  | [] => false
  | c :: cs =>
    if c == '-' then !atBlank cs
    else if c == '?' || c == ':' then !inBrackets && !atBlank cs
    else !(c == ' ' || c == '\t' || isBreak c || isBracket c ||
      ['#', '&', '*', '!', '|', '>', Text.singleQuote, Text.doubleQuote, '%', '@', '\x60'].contains c)

def plainLine (inBrackets : Bool) : List Char → List Char × List Char
  | [] => ([], [])
  | c :: cs =>
    let stops := if c == ' ' then
        let after := cs.dropWhile (· == ' ')
        endsPlain inBrackets after || after.head? == some '#'
      else endsPlain inBrackets (c :: cs)
    if stops then ([], c :: cs)
    else
      let (line, rest) := plainLine inBrackets cs
      (c :: line, rest)

/-- What stands for a number of line breaks inside a scalar: one is a space, and of more the first
is left out. -/
def joint (breaks : Nat) : List Char :=
  if breaks = 1 then [' '] else List.replicate (breaks - 1) '\n'

/-- The number of line breaks before the next character that is no space, and that character's
place. -/
def breaksAhead (breaks column : Nat) : List Char → Nat × Place
  | [] => (breaks, ⟨[], column⟩)
  | c :: cs =>
    if isBreak c then breaksAhead (breaks + 1) 0 cs
    else if c == ' ' then breaksAhead breaks (column + 1) cs
    else (breaks, ⟨c :: cs, column⟩)

/-- A scalar without quotes. Its further lines stand at the given column or to the right of it;
inside brackets they may stand anywhere. -/
def plain (inBrackets : Bool) (least : Nat) (fuel : Nat) (cs : List Char) :
    List Char × List Char :=
  let (line, rest) := plainLine inBrackets cs
  match fuel with
  | 0 => (line, rest)
  | fuel + 1 =>
    if line.isEmpty then (line, rest)
    else
      let (breaks, next) := breaksAhead 0 0 rest
      if breaks = 0 || next.isEnd || next.rest.head? == some '#' ||
          (!inBrackets && next.column < least) then (line, rest)
      else
        let (more, after) := plain inBrackets least fuel next.rest
        if more.isEmpty then (line, rest) else (line ++ joint breaks ++ more, after)

/-- Spaces and line breaks inside quotes: what they stand for, and what follows them. -/
def quotedGap (cs : List Char) : List Char × List Char :=
  let isGap (c : Char) : Bool := c == ' ' || c == '\t' || isBreak c
  let run := cs.takeWhile isGap
  let breaks := run.countP isBreak
  (if breaks = 0 then run else joint breaks, cs.dropWhile isGap)

def simpleEscape? (c : Char) : Option Char :=
  [('0', '\x00'), ('a', '\x07'), ('b', '\x08'), ('t', '\t'), ('\t', '\t'), ('n', '\n'),
    ('v', '\x0B'), ('f', '\x0C'), ('r', '\r'), ('e', '\x1B'), (' ', ' '), ('\x22', '\x22'),
    ('\\', '\\'), ('/', '/'), ('N', '\x85'), ('_', '\xA0'), ('L', '\u2028'), ('P', '\u2029')].lookup c

def escapeWidth? (c : Char) : Option Nat := [('x', 2), ('u', 4), ('U', 8)].lookup c

/-- What an escape stands for whose backslash has been read, and what follows it. A line break that
is escaped stands for nothing. -/
def escape? (cs : List Char) : Option (List Char × List Char) :=
  match cs with
  | [] => none
  | c :: rest =>
    match simpleEscape? c, escapeWidth? c with
    | some e, _ => some ([e], rest)
    | none, some width =>
      let digits := rest.take width
      if digits.length = width && digits.all isHexadecimal then
        some ([Char.ofNat (valueIn 16 digits)], rest.drop width)
      else none
    | none, none =>
      if isBreak c then some ([], rest.dropWhile fun d => d == ' ' || d == '\t' || isBreak d)
      else none

def quotedRest (quote : Char) (fuel : Nat) (read : List Char) (cs : List Char) :
    Option (List Char × List Char) :=
  match fuel, cs with
  | 0, _ | _, [] => none
  | fuel + 1, c :: rest =>
    if c == quote then
      if quote == Text.singleQuote && rest.head? == some quote then
        quotedRest quote fuel (quote :: read) (rest.drop 1)
      else some (read.reverse, rest)
    else if c == '\\' && quote == Text.doubleQuote then
      match escape? rest with
      | some (text, rest) => quotedRest quote fuel (text.reverse ++ read) rest
      | none => none
    else if c == ' ' || c == '\t' || isBreak c then
      let (text, rest) := quotedGap (c :: rest)
      quotedRest quote fuel (text.reverse ++ read) rest
    else quotedRest quote fuel (c :: read) rest

def quoted? : List Char → Option (List Char × List Char)
  | [] => none
  | c :: cs =>
    if c == Text.singleQuote || c == Text.doubleQuote then quotedRest c (cs.length + 1) [] cs
    else none

/-- A key at the front of a text, and what follows its colon. A key stands on one line. -/
def key? (cs : List Char) : Option (Value × List Char) := do
  let (key, rest) ← match quoted? cs with
    | some (text, rest) =>
      if (cs.take (cs.length - rest.length)).any isBreak then none
      else some (Value.text (String.ofList text), rest)
    | none =>
      if beginsPlain false cs then
        let (line, rest) := plainLine false cs
        (plainValue? line).map fun value => (value, rest)
      else none
  match rest.dropWhile (· == ' ') with
  | ':' :: rest => if atBlank rest then return (key, rest) else none
  | _ => none

def scalar? (inBrackets : Bool) (least : Nat) (cs : List Char) : Option (Value × List Char) :=
  match quoted? cs with
  | some (text, rest) => some (.text (String.ofList text), rest)
  | none =>
    if beginsPlain inBrackets cs then
      let (text, rest) := plain inBrackets least cs.length cs
      (plainValue? text).map fun value => (value, rest)
    else none

def isScalar : Value → Bool
  | .list _ | .mapping _ => false
  | _ => true

mutual

def flow? (fuel : Nat) (cs : List Char) : Option (Value × List Char) :=
  match fuel with
  | 0 => none
  | fuel + 1 =>
    match cs with
    | '[' :: rest => (flowItems? fuel [] (skip rest)).map fun (items, rest) => (.list items, rest)
    | '\x7b' :: rest =>
      (flowEntries? fuel [] (skip rest)).map fun (entries, rest) => (.mapping entries, rest)
    | _ => scalar? true 0 cs

def flowValue? (fuel : Nat) (cs : List Char) : Option (Value × List Char) :=
  match fuel with
  | 0 => none
  | fuel + 1 =>
    match skip cs with
    | c :: rest => if isBracket c && c != '[' && c != '\x7b' then some (.null, c :: rest)
      else flow? fuel (c :: rest)
    | [] => none

/-- The items of a sequence up to its bracket, those read so far standing in reverse. An item with
a colon after it is a mapping of one entry. -/
def flowItems? (fuel : Nat) (read : List Value) (cs : List Char) :
    Option (List Value × List Char) :=
  match fuel, cs with
  | 0, _ => none
  | _ + 1, ']' :: rest => some (read.reverse, rest)
  | fuel + 1, cs => do
    let (item, rest) ← flow? fuel cs
    let (item, rest) ← match skip rest with
      | ':' :: rest =>
        if isScalar item then
          (flowValue? fuel rest).map fun (value, rest) => (Value.mapping [(item, value)], rest)
        else none
      | rest => some (item, rest)
    match skip rest with
    | ',' :: rest => flowItems? fuel (item :: read) (skip rest)
    | ']' :: rest => return ((item :: read).reverse, rest)
    | _ => none

def flowEntries? (fuel : Nat) (read : List (Value × Value)) (cs : List Char) :
    Option (List (Value × Value) × List Char) :=
  match fuel, cs with
  | 0, _ => none
  | _ + 1, '\x7d' :: rest => some (read, rest)
  | fuel + 1, cs => do
    let (key, rest) ← flow? fuel cs
    let (value, rest) ← match skip rest with
      | ':' :: rest => flowValue? fuel rest
      | rest => some (.null, rest)
    let read ← if isScalar key then some (Value.insertEntry read key value) else none
    match skip rest with
    | ',' :: rest => flowEntries? fuel read (skip rest)
    | '\x7d' :: rest => return (read, rest)
    | _ => none

end

def isDash : List Char → Bool
  | '-' :: rest => atBlank rest
  | _ => false

mutual

/-- A value whose first character stands at the given column, inside a collection that stands at
the column `around - 1`. A collection set out by indentation may begin here only if the flag says
so. The rest begins right after the last character of the value. -/
def block? (fuel around : Nat) (mayNest : Bool) (place : Place) :
    Option (Value × List Char) :=
  match fuel with
  | 0 => none
  | fuel + 1 =>
    if isDash place.rest then
      if mayNest then
        (items? fuel place.column [] place.rest).map fun (items, rest) => (.list items, rest)
      else none
    else
      match place.rest.head? with
      | none => none
      | some c =>
        if c == '[' || c == '\x7b' then flow? (2 * place.rest.length + 2) place.rest
        else
          match key? place.rest with
          | some (key, rest) =>
            if mayNest then
              (entries? fuel place.column [] key rest).map fun (entries, rest) =>
                (.mapping entries, rest)
            else none
          | none => scalar? false around place.rest

/-- The value of an item or of a key at the given column. It stands on the same line or farther to
the right below. -/
def nested? (fuel column : Nat) (mayNest : Bool) (start : Nat) (cs : List Char) :
    Option (Value × List Char) :=
  match fuel with
  | 0 => none
  | fuel + 1 =>
    let (ended, place) := gap start cs
    if place.isEnd then some (.null, cs)
    else if !ended then block? fuel (column + 1) mayNest place
    else if column < place.column then block? fuel (column + 1) true place
    else some (.null, cs)

def items? (fuel column : Nat) (read : List Value) (cs : List Char) :
    Option (List Value × List Char) :=
  match fuel with
  | 0 => none
  | fuel + 1 => do
    let (item, rest) ← nested? fuel column true (column + 1) (cs.drop 1)
    let read := item :: read
    let (ended, place) := gap 0 rest
    if place.isEnd || (ended && place.column < column) then return (read.reverse, rest)
    else if !ended || column < place.column then none
    else if isDash place.rest then items? fuel column read place.rest
    else return (read.reverse, rest)

def entries? (fuel column : Nat) (read : List (Value × Value)) (key : Value) (cs : List Char) :
    Option (List (Value × Value) × List Char) :=
  match fuel with
  | 0 => none
  | fuel + 1 => do
    let (ended, place) := gap 0 cs
    let (value, rest) ← if ended && !place.isEnd && place.column == column && isDash place.rest
      then (items? fuel column [] place.rest).map fun (items, rest) => (Value.list items, rest)
      else nested? fuel column false 0 cs
    let read := Value.insertEntry read key value
    let (ended, place) := gap 0 rest
    if place.isEnd || (ended && place.column < column) then return (read, rest)
    else if !ended || column < place.column then none
    else
      match key? place.rest with
      | some (key, rest) => entries? fuel column read key rest
      | none => none

end

def isFinished (cs : List Char) : Bool :=
  let (_, place) := gap 0 cs
  place.rest.isEmpty ||
    (place.column == 0 && isMarker '.' place.rest && (skip (place.rest.drop 3)).isEmpty)

/-- The value of a document, whose content may not be set out by indentation on the line of its
opening marker. -/
def document? (mayNest : Bool) (cs : List Char) : Option (Value × List Char) :=
  let (ended, place) := gap 0 cs
  if place.isEnd then some (.null, cs)
  else block? (4 * cs.length + 4) 0 (mayNest || ended) place

def read? (cs : List Char) : Option Value :=
  let cs := Text.stripByteOrderMark cs
  if !cs.all isAllowed then none
  else
    let (_, place) := gap 0 cs
    let found := if place.column == 0 && isMarker '-' place.rest
      then document? false (place.rest.drop 3)
      else document? true cs
    match found with
    | some (value, rest) => if isFinished rest then some value else none
    | none => none

end DtdConformance.Data.Yaml
