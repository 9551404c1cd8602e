import DtdConformance.Text.Integer
import DtdConformance.Text.Search

/-! # Diagnostics and their markers

A diagnostic is written as a marker with a line of the document, a marker with a line of the
declarations if one is known, and a message. The markers can be read back from the text. A text
without markers is a message as a whole.
-/
namespace DtdConformance.Conformance
set_option autoImplicit false

open Text

structure Diagnostic where
  documentLine : Option Int
  declarationLine : Option Int
  message : String
  deriving Repr, DecidableEq

def documentMarker : List Char := ['[', 'X', 'M', 'L', ':', ' ']

def declarationMarker : List Char := ['[', 'D', 'T', 'D', ':', ' ']

def unknownLine : Char := '?'

namespace Diagnostic

def lineChars : Option Int → List Char
  | some line => (toString line).toList
  | none => [unknownLine]

/-- The markers. There is no line zero of the declarations. -/
def markers (diagnostic : Diagnostic) : List Char :=
  documentMarker ++ lineChars diagnostic.documentLine ++ [']'] ++
    match diagnostic.declarationLine with
    | some line => if line = 0 then [] else ' ' :: declarationMarker ++ lineChars (some line) ++ [']']
    | none => []

def chars (diagnostic : Diagnostic) : List Char :=
  diagnostic.markers ++ ' ' :: diagnostic.message.toList

def render (diagnostic : Diagnostic) : String := String.ofList diagnostic.chars

end Diagnostic

/-- What a text says about the place of a diagnostic. -/
structure Located where
  diagnostic : Diagnostic
  hasDocumentMarker : Bool
  deriving Repr, DecidableEq

inductive Target where
  | document (line : Int)
  | declaration (line : Int)
  deriving Repr, DecidableEq

def Located.targets (located : Located) : List Target :=
  (located.diagnostic.documentLine.map Target.document).toList ++
    (located.diagnostic.declarationLine.map Target.declaration).toList

/-- The digits before a closing bracket, and what follows the bracket. -/
def digitsInMarker? (cs : List Char) : Option (Int × List Char) :=
  match cs.dropWhile isDigit with
  | ']' :: rest => (digitsValue? false 0 (cs.takeWhile isDigit)).map fun n => (n, rest)
  | _ => none

/-- The line in a marker at the front of a text, or no line if the marker says that it is unknown,
and what follows the marker. -/
def documentMarker? (cs : List Char) : Option (Option Int × List Char) :=
  (after? documentMarker cs).bind fun rest =>
    match rest with
    | '?' :: ']' :: rest => some (none, rest)
    | _ => (digitsInMarker? rest).map fun (line, rest) => (some line, rest)

def declarationMarker? (cs : List Char) : Option (Int × List Char) :=
  (after? declarationMarker cs).bind digitsInMarker?

def Located.ofChars (cs : List Char) : Located :=
  match documentMarker? cs with
  | some (documentLine, rest) =>
    let body := trimLeft rest
    match declarationMarker? body with
    | some (line, rest) => ⟨⟨documentLine, some line, String.ofList (trimLeft rest)⟩, true⟩
    | none => ⟨⟨documentLine, none, String.ofList body⟩, true⟩
  | none =>
    match declarationMarker? (trimLeft cs) with
    | some (line, rest) => ⟨⟨none, some line, String.ofList (trimLeft rest)⟩, false⟩
    | none => ⟨⟨none, none, String.ofList cs⟩, false⟩

def Located.ofText (text : String) : Located := .ofChars text.toList

end DtdConformance.Conformance
