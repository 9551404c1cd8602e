import DtdConformance.Text.Quoted

/-! # UTF-8

Reading characters from bytes. A character takes one to four bytes: a lead that says how many, and
continuations. The second byte is limited so that every character has one form only and none is a
surrogate or too large. The first sequence of bytes that is no character makes the whole text
unreadable.
-/
namespace DtdConformance.Text.Utf8
set_option autoImplicit false

inductive Problem where
  | invalidStart
  | invalidContinuation
  | unexpectedEnd
  deriving Repr, DecidableEq

def Problem.message : Problem → String
  | invalidStart => "invalid start byte"
  | invalidContinuation => "invalid continuation byte"
  | unexpectedEnd => "unexpected end of data"

structure Fault where
  problem : Problem
  position : Nat
  bytes : List UInt8
  deriving Repr, DecidableEq

def Fault.message (fault : Fault) : String :=
  let reason := fault.problem.message
  match fault.bytes with
  | [byte] =>
    let code := String.ofList (hexDigits 2 byte.toNat)
    s!"'utf-8' codec can't decode byte 0x{code} in position {fault.position}: {reason}"
  | bytes =>
    let last := fault.position + bytes.length - 1
    s!"'utf-8' codec can't decode bytes in position {fault.position}-{last}: {reason}"

/-- A lead byte as the number of its continuations and the bits that it holds. -/
def lead? (byte : UInt8) : Option (Nat × Nat) :=
  let n := byte.toNat
  if n < 0x80 then some (0, n)
  else if n < 0xC2 then none
  else if n < 0xE0 then some (1, n - 0xC0)
  else if n < 0xF0 then some (2, n - 0xE0)
  else if n < 0xF5 then some (3, n - 0xF0)
  else none

def isContinuation (byte : UInt8) : Bool := 0x80 ≤ byte.toNat && byte.toNat < 0xC0

def isSecond (lead byte : UInt8) : Bool :=
  isContinuation byte &&
    match lead.toNat with
    | 0xE0 => 0xA0 ≤ byte.toNat
    | 0xED => byte.toNat < 0xA0
    | 0xF0 => 0x90 ≤ byte.toNat
    | 0xF4 => byte.toNat < 0x90
    | _ => true

/-- Reads the given number of continuations. The accumulator holds the bytes of the character so
far in reverse, and the bits that they stand for are given. -/
def continuations (lead : UInt8) (read : List UInt8) (bits : Nat) :
    Nat → List UInt8 → Except (Problem × List UInt8) (Char × List UInt8)
  | 0, bytes => .ok (Char.ofNat bits, bytes)
  | _ + 1, [] => .error (.unexpectedEnd, read.reverse)
  | n + 1, byte :: bytes =>
    let fits := if read.length = 1 then isSecond lead byte else isContinuation byte
    if fits then continuations lead (byte :: read) (bits * 64 + (byte.toNat - 0x80)) n bytes
    else .error (.invalidContinuation, read.reverse)

theorem length_le_of_continuations {lead : UInt8} {read : List UInt8} {bits n : Nat}
    {bytes rest : List UInt8} {c : Char}
    (h : continuations lead read bits n bytes = .ok (c, rest)) : rest.length ≤ bytes.length := by
  fun_induction continuations lead read bits n bytes with
  | case1 => simp_all
  | case2 => simp at h
  | case3 => rename_i ih; have := ih h; simp only [List.length_cons]; omega
  | case4 => simp at h

def decodeFrom (position : Nat) (bytes : List UInt8) : Except Fault (List Char) :=
  match bytes with
  | [] => .ok []
  | byte :: bytes =>
    match lead? byte with
    | none => .error ⟨.invalidStart, position, [byte]⟩
    | some (n, bits) =>
      match _hChar : continuations byte [byte] bits n bytes with
      | .error (problem, read) => .error ⟨problem, position, read⟩
      | .ok (c, rest) =>
        (decodeFrom (position + 1 + (bytes.length - rest.length)) rest).map (c :: ·)
termination_by bytes.length
decreasing_by
  have := length_le_of_continuations _hChar
  simp only [List.length_cons]
  omega

def decode (bytes : List UInt8) : Except Fault (List Char) := decodeFrom 0 bytes

end DtdConformance.Text.Utf8
