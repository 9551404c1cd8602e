/-! # Line numbers of offsets

The offsets at which the lines of a text start, and the passage between an offset and the number
of its line. Lines are numbered from one and end with a line feed; any other control character is
ordinary content.
-/
namespace DtdConformance.Text
set_option autoImplicit false

/-- The offsets that follow a line feed, the text standing at the given offset. -/
def startsAfter (offset : Nat) : List Char → List Nat
  | [] => []
  | c :: cs =>
    if c = '\n' then (offset + 1) :: startsAfter (offset + 1) cs else startsAfter (offset + 1) cs

structure LineIndex where
  starts : List Nat
  textLength : Nat
  deriving Repr, DecidableEq

namespace LineIndex

def ofText (cs : List Char) : LineIndex where
  starts := 0 :: startsAfter 0 cs
  textLength := cs.length

def lineCount (index : LineIndex) : Nat := index.starts.length

/-- The number of the last line that starts at or before the offset; the first line for an offset
before the text. -/
def lineAt (index : LineIndex) (offset : Int) : Nat :=
  if offset ≤ 0 then 1 else index.starts.countP (fun (start : Nat) => decide ((start : Int) ≤ offset))

structure NoSuchLine where
  line : Int
  lineCount : Nat
  deriving Repr, DecidableEq

def NoSuchLine.message (fault : NoSuchLine) : String :=
  s!"line {fault.line} out of range 1..{fault.lineCount}"

def startOf (index : LineIndex) (line : Int) : Except NoSuchLine Nat :=
  if line < 1 then .error ⟨line, index.lineCount⟩
  else match index.starts[(line - 1).toNat]? with
    | some start => .ok start
    | none => .error ⟨line, index.lineCount⟩

end LineIndex

theorem length_startsAfter (offset : Nat) (cs : List Char) :
    (startsAfter offset cs).length = cs.count '\n' := by
  induction cs generalizing offset with
  | nil => rfl
  | cons c cs ih =>
    by_cases hFeed : c = '\n' <;> simp [startsAfter, hFeed, ih]

theorem LineIndex.lineCount_ofText (cs : List Char) :
    (ofText cs).lineCount = cs.count '\n' + 1 := by
  simp [lineCount, ofText, length_startsAfter]

end DtdConformance.Text
