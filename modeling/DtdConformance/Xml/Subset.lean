import DtdConformance.Xml.Entity

/-! # The document type declaration

A document may begin with a declaration of its type, which names an external subset or holds
declarations itself. The external subset is never fetched. The declarations are checked for their
form; of what they say, only entities and default values matter here.
-/
namespace DtdConformance.Xml.Scan
set_option autoImplicit false

def groupLimit (huge : Bool) : Nat := if huge then 2048 else 256

def occurrence : Scan Unit := do
  unless ← accept "?" do
    unless ← accept "*" do
      let _ ← accept "+"

def mixedRest : (fuel : Nat) → (named : Bool) → Scan Unit
  | 0, _ => fail (.unfinished "mixed content model")
  | fuel + 1, named => do
    skipSpaces
    if ← accept "|" then
      skipSpaces
      let _ ← name "name in a mixed content model"
      mixedRest fuel true
    else if named then expect ")*"
    else
      expect ")"
      let _ ← accept "*"

mutual

def group (limit : Nat) : (fuel : Nat) → (depth : Nat) → Scan Unit
  | 0, _ => fail (.unfinished "content model")
  | fuel + 1, depth => do
    if limit < depth then fail (.tooDeep limit)
    groupItem limit fuel depth
    groupRest limit fuel depth Option.none

def groupItem (limit : Nat) : (fuel : Nat) → (depth : Nat) → Scan Unit
  | 0, _ => fail (.unfinished "content model")
  | fuel + 1, depth => do
    skipSpaces
    if ← accept "(" then group limit fuel (depth + 1)
    else
      let _ ← name "name in a content model"
      occurrence

/-- Separators and items; all separators of a group must agree. -/
def groupRest (limit : Nat) : (fuel : Nat) → (depth : Nat) → Option Char → Scan Unit
  | 0, _, _ => fail (.unfinished "content model")
  | fuel + 1, depth, separator? => do
    skipSpaces
    if ← accept ")" then occurrence
    else
      match ← peek? with
      | some c =>
        if c == ',' || c == '|' then
          unless (separator?.getD c) == c do fail (.misplaced "another separator")
          expect (String.singleton c)
          groupItem limit fuel depth
          groupRest limit fuel depth (some c)
        else fail (.unfinished "content model")
      | none => fail (.unfinished "content model")

end

def elementRest (huge : Bool) : Scan Unit := do
  expectSpaces
  let _ ← name "name of an element"
  expectSpaces
  unless ← accept "EMPTY" do
    unless ← accept "ANY" do
      expect "("
      skipSpaces
      let fuel := (← get).length + 1
      if ← accept "#PCDATA" then mixedRest fuel false
      else group (groupLimit huge) (3 * fuel) 1
  skipSpaces
  expect ">"

def alternatives (item : Scan Unit) : (fuel : Nat) → Scan Unit
  | 0 => fail (.unfinished "enumeration")
  | fuel + 1 => do
    skipSpaces
    item
    skipSpaces
    if ← accept "|" then alternatives item fuel else expect ")"

def nameToken : Scan Unit := do
  if (← takeWhile isNamePart).isEmpty then fail (.expected "name token")

def attributeType : Scan Unit := do
  let words := ["CDATA", "IDREFS", "IDREF", "ID", "ENTITY", "ENTITIES", "NMTOKENS", "NMTOKEN"]
  for word in words do
    if ← accept word then return
  let fuel := (← get).length + 1
  if ← accept "NOTATION" then
    expectSpaces
    expect "("
    alternatives (do let _ ← name "name of a notation") fuel
  else
    expect "("
    alternatives nameToken fuel

def attributeDefault (declarations : Declarations) : Scan (Option (List Char)) := do
  if ← accept "#REQUIRED" then return none
  else if ← accept "#IMPLIED" then return none
  else
    if ← accept "#FIXED" then expectSpaces
    return some (← attributeValue declarations)

def attributeList (element : String) : (fuel : Nat) → Declarations → Scan Declarations
  | 0, _ => fail (.unfinished "attribute list")
  | fuel + 1, declarations => do
    if ← accept ">" then return declarations
    let attributeName ← name "name of an attribute"
    expectSpaces
    attributeType
    expectSpaces
    let declarations := match ← attributeDefault declarations with
      | some value => declarations.addDefault element attributeName value
      | none => declarations
    if ← accept ">" then return declarations
    expectSpaces
    attributeList element fuel declarations

def attributeListRest (declarations : Declarations) : Scan Declarations := do
  expectSpaces
  let element ← name "name of an element"
  skipSpaces
  attributeList element ((← get).length + 1) declarations

def publicId : Scan Unit := do
  let literal ← quoted "public identifier"
  unless literal.all isPublicIdChar do fail .forbiddenCharacter

/-- A system identifier, with a public one before it or alone. A notation may have a public
identifier alone. -/
def externalId? (publicAlone : Bool) : Scan (Option (List Char)) := do
  if ← accept "SYSTEM" then
    expectSpaces
    return some (← quoted "system identifier")
  else if ← accept "PUBLIC" then
    expectSpaces
    publicId
    let separated ← spaces
    if publicAlone then
      if !separated || (← quote?).isNone then return some []
    else unless separated do fail (.expected "white space")
    return some (← quoted "system identifier")
  else return none

def plainName (what : String) : Scan String := do
  let name ← name what
  if name.toList.contains ':' then fail (.malformedName name)
  return name

def externalEntityId : Scan Unit := do
  match ← externalId? false with
  | none => fail (.expected "value of an entity")
  | some systemId =>
    if systemId.contains '#' then fail (.misplaced "fragment identifier")

def entityLiteral : Scan (List Char) := do
  let raw ← quoted "value of an entity"
  match entityText raw.length raw with
  | .ok text => return text
  | .error fault => fail fault

def entityRest (declarations : Declarations) : Scan Declarations := do
  expectSpaces
  if ← accept "%" then
    expectSpaces
    let name ← plainName "name of an entity"
    expectSpaces
    let text ← if (← quote?).isSome then some <$> entityLiteral
      else do
        externalEntityId
        pure none
    skipSpaces
    expect ">"
    return declarations.addParameter name text
  else
    let name ← plainName "name of an entity"
    expectSpaces
    let entity ← if (← quote?).isSome then Entity.internal <$> entityLiteral
      else do
        externalEntityId
        if ← spaces then
          if ← accept "NDATA" then
            expectSpaces
            let _ ← Scan.name "name of a notation"
            pure .unparsed
          else pure .external
        else pure .external
    skipSpaces
    expect ">"
    return declarations.addGeneral name entity

def notationRest : Scan Unit := do
  expectSpaces
  let _ ← plainName "name of a notation"
  expectSpaces
  match ← externalId? true with
  | none => fail (.expected "identifier of a notation")
  | some _ =>
    skipSpaces
    expect ">"

/-- Declarations up to the closing bracket, or up to the end of the text of a parameter entity.
The fuel bounds their number, `active` holds the parameter entities that are being read. -/
def declarations (huge : Bool) (fuel : Nat) (active : List String) (known : Declarations) :
    Scan Declarations :=
  match fuel with
  | 0 => fail (.unfinished "internal subset")
  | fuel + 1 => do
    skipSpaces
    match ← peek? with
    | none => if active.isEmpty then fail (.unfinished "internal subset") else return known
    | some ']' =>
      if active.isEmpty then return known else fail (.misplaced "closing bracket")
    | some '%' =>
      expect "%"
      let name ← name "name of a parameter entity"
      expect ";"
      let known := { known with hasParameterReferences := true }
      match known.parameter.lookup name with
      | some (some text) =>
        if active.contains name then fail (.recursiveEntity name)
        let rest ← get
        set text
        let known ← declarations huge fuel (name :: active) known
        set rest
        declarations huge fuel active known
      | some none => declarations huge fuel active known
      | none =>
        if known.standalone then fail (.undeclaredEntity name)
        declarations huge fuel active known
    | some _ =>
      if ← accept "<!--" then
        commentRest
        declarations huge fuel active known
      else if ← accept "<?" then
        instructionRest
        declarations huge fuel active known
      else if ← accept "<!ELEMENT" then
        elementRest huge
        declarations huge fuel active known
      else if ← accept "<!ATTLIST" then
        declarations huge fuel active (← attributeListRest known)
      else if ← accept "<!ENTITY" then
        declarations huge fuel active (← entityRest known)
      else if ← accept "<!NOTATION" then
        notationRest
        declarations huge fuel active known
      else fail (.misplaced "text of the internal subset")

def documentTypeRest (huge : Bool) (known : Declarations) : Scan Declarations := do
  expectSpaces
  let _ ← name "name of the document type"
  skipSpaces
  let known := { known with hasExternalSubset := (← externalId? false).isSome }
  skipSpaces
  let known ← if ← accept "[" then do
      let fuel := (← get).length + 1
      let known ← declarations huge (fuel * (fuel + 1)) [] known
      expect "]"
      skipSpaces
      pure known
    else pure known
  expect ">"
  return known

end DtdConformance.Xml.Scan
