import DtdConformance.Document.Tree
import DtdConformance.Text.Blank
import DtdConformance.Text.LineEnding
import DtdConformance.Xml.Subset
import DtdConformance.Xml.Tag

/-! # Reading documents

The tree of a well-formed document with namespaces. The label of an element is the line on which
its start tag ends. A reference to a declared entity is kept as an aside: the text of the entity
is checked, but it is no part of the tree.
-/
namespace DtdConformance.Xml
set_option autoImplicit false

open Document

def elementLimit (huge : Bool) : Nat := if huge then 2048 else 256

inductive Item where
  | text (chars : List Char)
  | aside (kind : Aside)
  | element (name : String) (line : Nat) (inner : Content Nat)

def contentOf : List Item → Content Nat
  | [] => .done
  | .text chars :: rest => .text chars (contentOf rest)
  | .aside kind :: rest => .aside kind (contentOf rest)
  | .element name line inner :: rest => .element name line inner (contentOf rest)

/-- An element whose end tag has not been read, with its items so far in reverse. -/
structure Frame where
  name : String
  line : Nat
  scope : Scope
  items : List Item

def Frame.add (frame : Frame) (item : Item) : Frame := { frame with items := item :: frame.items }

def Frame.content (frame : Frame) : Content Nat := contentOf frame.items.reverse

/-- What reading the content of a document or of an entity depends on. -/
structure Setting where
  known : Declarations
  limit : Nat
  feeds : Nat
  depth : Nat
  active : List String

/-- Content read so far: the innermost open element, those around it, and the entities whose text
has been found in order. The outermost frame of an entity stands for the entity itself. -/
structure Progress where
  inner : Frame
  outer : List Frame
  sound : List String

def Progress.add (progress : Progress) (item : Item) : Progress :=
  { progress with inner := progress.inner.add item }

namespace Scan

def line (feeds : Nat) : Scan Nat := do return 1 + (feeds - (← get).count '\n')

/-- A carriage return in a text is a line ending. -/
def endLines (cs : List Char) : List Char := cs.map (fun c => if c = '\r' then '\n' else c)

def characterData : Scan (List Char) := do
  let cs ← takeWhile (fun c => c != '<' && c != '&')
  unless cs.all isChar do fail .forbiddenCharacter
  if (Text.splitAt? "]]>".toList cs).isSome then fail (.misplaced "end of a character data section")
  return endLines cs

inductive Opened where
  | closed (name : String) (line : Nat)
  | opened (frame : Frame)

def startTagRest (setting : Setting) (scope : Scope) (depth : Nat) : Scan Opened := do
  if setting.limit ≤ depth then fail (.tooDeep setting.limit)
  let name ← name "name of an element"
  let found ← attributes setting.known ((← get).length + 1) []
  match resolve setting.known scope name found with
  | .error fault => fail fault
  | .ok inner =>
    let line ← line setting.feeds
    if ← accept "/>" then return .closed name line
    expect ">"
    return .opened ⟨name, line, inner, []⟩

def endTagRest (setting : Setting) (frame : Frame) : Scan Unit := do
  let name ← name "name of an element"
  skipSpaces
  expect ">"
  unless name == frame.name do fail (.mismatchedEnd frame.name name (← line setting.feeds))

/-- Reads content up to the end tag of the outermost element, or up to the end of the text of an
entity. The fuel bounds the steps along a chain of entities. -/
def content (setting : Setting) (fuel : Nat) (progress : Progress) : Scan (Content Nat × List String) :=
  match fuel with
  | 0 => fail (.unfinished "content")
  | fuel + 1 => do
    match ← peek? with
    | none =>
      if !setting.active.isEmpty && progress.outer.isEmpty then
        return (progress.inner.content, progress.sound)
      else fail (.unfinished "content")
    | some '<' =>
      if ← accept "<!--" then
        commentRest
        content setting fuel (progress.add (.aside .comment))
      else if ← accept "<![CDATA[" then
        let cs ← upTo "]]>" "character data section"
        content setting fuel (progress.add (.text (endLines cs)))
      else if ← accept "<?" then
        instructionRest
        content setting fuel (progress.add (.aside .instruction))
      else if ← accept "</" then
        match progress.outer with
        | [] =>
          unless setting.active.isEmpty do fail (.misplaced "end tag")
          endTagRest setting progress.inner
          return (progress.inner.content, progress.sound)
        | frame :: outer =>
          endTagRest setting progress.inner
          let element := Item.element progress.inner.name progress.inner.line
            progress.inner.content
          content setting fuel { progress with inner := frame.add element, outer }
      else
        expect "<"
        let depth := setting.depth + progress.outer.length + 1
        match ← startTagRest setting progress.inner.scope depth with
        | .closed name line =>
          content setting fuel (progress.add (.element name line .done))
        | .opened frame =>
          content setting fuel
            { progress with inner := frame, outer := progress.inner :: progress.outer }
    | some '&' =>
      expect "&"
      match ← reference with
      | .character c => content setting fuel (progress.add (.text [c]))
      | .entity name =>
        match predefined? name, setting.known.general.lookup name with
        | some c, _ => content setting fuel (progress.add (.text [c]))
        | none, none =>
          if setting.known.isComplete then fail (.undeclaredEntity name)
          content setting fuel (progress.add (.aside .entityReference))
        | none, some .unparsed => fail (.unusableEntity name)
        | none, some .external => content setting fuel (progress.add (.aside .entityReference))
        | none, some (.internal text) =>
          if setting.active.contains name then fail (.recursiveEntity name)
          let progress := progress.add (.aside .entityReference)
          if progress.sound.contains name then content setting fuel progress
          else
            let rest ← get
            set text
            let inside := { setting with
              depth := setting.depth + progress.outer.length + 1
              active := name :: setting.active }
            let (_, sound) ← content inside fuel ⟨⟨name, 0, [], []⟩, [], progress.sound⟩
            set rest
            content setting fuel { progress with sound := name :: sound }
    | some _ =>
      let cs ← characterData
      content setting fuel (progress.add (.text cs))

def declaredValue (what : String) : Scan (List Char) := do
  skipSpaces
  expect "="
  skipSpaces
  quoted what

def isVersion (cs : List Char) : Bool :=
  match cs with
  | '1' :: '.' :: rest => rest.all Char.isDigit
  | _ => false

def isEncodingName (cs : List Char) : Bool :=
  match cs with
  | [] => false
  | c :: rest =>
    c.isAlpha && rest.all (fun c => c.isAlphanum || c == '.' || c == '_' || c == '-')

/-- The rest of the declaration of a document: a version, then an encoding, which is not heeded,
and whether the document stands alone. -/
def documentDeclarationRest : Scan Bool := do
  skipSpaces
  expect "version"
  unless isVersion (← declaredValue "version") do fail (.expected "version 1")
  let separated ← spaces
  let separated ← if ← atWord "encoding" then do
      unless separated do fail (.expected "white space")
      expect "encoding"
      unless isEncodingName (← declaredValue "encoding") do fail (.expected "name of an encoding")
      spaces
    else pure separated
  let alone ← if ← atWord "standalone" then do
      unless separated do fail (.expected "white space")
      expect "standalone"
      let value ← declaredValue "standalone"
      let alone := value == "yes".toList
      unless alone || value == "no".toList do fail (.expected "yes or no")
      skipSpaces
      pure alone
    else pure false
  expect "?>"
  return alone

def document (huge : Bool) : Scan (Element Nat) := do
  let all ← get
  let fuel := all.length + 1
  let standalone ← match Text.after? "<?xml".toList all with
    | some (c :: rest) =>
      if isSpace c then
        set (c :: rest)
        documentDeclarationRest
      else pure false
    | _ => pure false
  misc fuel
  let none := { Declarations.none with standalone }
  let known ← if ← accept "<!DOCTYPE" then documentTypeRest huge none else pure none
  misc fuel
  expect "<"
  let setting : Setting := ⟨known, elementLimit huge, all.count '\n', 0, []⟩
  let root ← match ← startTagRest setting [] 0 with
    | .closed name line => pure ⟨name, line, .done⟩
    | .opened frame =>
      let (inner, _) ← content setting (fuel + known.textLength) ⟨frame, [], []⟩
      pure ⟨frame.name, frame.line, inner⟩
  misc fuel
  unless (← get).isEmpty do fail (.misplaced "text after the document")
  return root

end Scan

def joinLineEndings : List Char → List Char
  | [] => []
  | '\r' :: '\n' :: cs => '\n' :: joinLineEndings cs
  | c :: cs => c :: joinLineEndings cs

def parse (huge : Bool) (cs : List Char) : Except Fault (Element Nat) :=
  (Scan.document huge).run' (joinLineEndings (Text.stripByteOrderMark cs))

structure Rejection where
  fault : Fault
  excerpt : String
  deriving Repr, DecidableEq

def excerptLength : Nat := 500

def excerpt (cs : List Char) : String :=
  if cs.length ≤ excerptLength then String.ofList cs
  else String.ofList (cs.take excerptLength) ++ "..."

/-- The tree of a text; none for a blank text, which is no document. -/
def read (huge : Bool) (cs : List Char) : Except Rejection (Option (Element Nat)) :=
  if Text.hasText cs then
    match parse huge cs with
    | .ok root => .ok (some root)
    | .error fault => .error ⟨fault, excerpt cs⟩
  else .ok none

structure Reader where
  huge : Bool
  readCount : Nat
  deriving Repr, DecidableEq

namespace Reader

def new (huge : Bool) : Reader := ⟨huge, 0⟩

def read (reader : Reader) (cs : List Char) :
    Except Rejection (Option (Element Nat)) × Reader :=
  (Xml.read reader.huge cs, { reader with readCount := reader.readCount + 1 })

def isWellFormed (reader : Reader) (cs : List Char) : Bool × Reader :=
  let (outcome, reader) := reader.read cs
  (match outcome with
    | .ok root? => root?.isSome
    | .error _ => false, reader)

end Reader

end DtdConformance.Xml
