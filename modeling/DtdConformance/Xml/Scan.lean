import DtdConformance.Text.Search
import DtdConformance.Xml.Character
import DtdConformance.Xml.Fault

/-! # Scanning documents

Steps that read from the front of a text: fixed words, white space, names, quoted literals,
comments and processing instructions.
-/
namespace DtdConformance.Xml
set_option autoImplicit false

/-- A step of reading. Its state is the text that is still to be read. -/
abbrev Scan := StateT (List Char) (Except Fault)

namespace Scan

def fail {α : Type} (fault : Fault) : Scan α := throw fault

def peek? : Scan (Option Char) := do return (← get).head?

def atChar (c : Char) : Scan Bool := do return (← peek?) == some c

def atWord (word : String) : Scan Bool := do
  return (Text.after? word.toList (← get)).isSome

def accept (word : String) : Scan Bool := do
  match Text.after? word.toList (← get) with
  | some rest =>
    set rest
    return true
  | none => return false

def expect (word : String) : Scan Unit := do
  unless ← accept word do fail (.expected word)

def takeWhile (p : Char → Bool) : Scan (List Char) := do
  let cs ← get
  set (cs.dropWhile p)
  return cs.takeWhile p

def spaces : Scan Bool := do return !(← takeWhile isSpace).isEmpty

def skipSpaces : Scan Unit := do let _ ← spaces

def expectSpaces : Scan Unit := do
  unless ← spaces do fail (.expected "white space")

def name? : Scan (Option String) := do
  match ← peek? with
  | some c =>
    if isNameStart c then return some (String.ofList (← takeWhile isNamePart)) else return none
  | none => return none

def name (what : String) : Scan String := do
  match ← name? with
  | some name => return name
  | none => fail (.expected what)

/-- The characters before a word, which is read too. All must be characters of documents. -/
def upTo (stop : String) (what : String) : Scan (List Char) := do
  match Text.splitAt? stop.toList (← get) with
  | none => fail (.unfinished what)
  | some (before, rest) =>
    unless before.all isChar do fail .forbiddenCharacter
    set rest
    return before

def quote? : Scan (Option Char) := do
  match ← peek? with
  | some c => return if c == '\x22' || c == '\x27' then some c else none
  | none => return none

def quoted (what : String) : Scan (List Char) := do
  match ← quote? with
  | none => fail (.expected what)
  | some quote =>
    expect (String.singleton quote)
    upTo (String.singleton quote) what

/-- The rest of a comment whose opening has been read. Two hyphens end it. -/
def commentRest : Scan Unit := do
  let _ ← upTo "--" "comment"
  expect ">"

def isReservedTarget (target : String) : Bool := target.toList.map Char.toLower == ['x', 'm', 'l']

def instructionRest : Scan Unit := do
  let target ← name "target of a processing instruction"
  if isReservedTarget target then fail (.misplaced "document declaration")
  if target.toList.contains ':' then fail (.malformedName target)
  unless ← accept "?>" do
    expectSpaces
    let _ ← upTo "?>" "processing instruction"

/-- Reads white space, comments and processing instructions. The fuel bounds their number. -/
def misc : (fuel : Nat) → Scan Unit
  | 0 => pure ()
  | fuel + 1 => do
    skipSpaces
    if ← accept "<!--" then
      commentRest
      misc fuel
    else if ← accept "<?" then
      instructionRest
      misc fuel
    else pure ()

end Scan

end DtdConformance.Xml
