/-! # Characters of documents

The characters that a document may hold, those that may stand in a name, and the white space of
its markup.
-/
namespace DtdConformance.Xml
set_option autoImplicit false

def isChar (c : Char) : Bool :=
  let n := c.toNat
  n == 0x9 || n == 0xA || n == 0xD || (0x20 ≤ n && n ≤ 0xD7FF) || (0xE000 ≤ n && n ≤ 0xFFFD) ||
    0x10000 ≤ n

def isSpace (c : Char) : Bool := c == ' ' || c == '\t' || c == '\n' || c == '\r'

/-- A character that may begin a name. A colon may do so, but not in a name with namespaces. -/
def isNameStart (c : Char) : Bool :=
  let n := c.toNat
  c.isAlpha || c == '_' || c == ':' || (0xC0 ≤ n && n ≤ 0xD6) || (0xD8 ≤ n && n ≤ 0xF6) ||
    (0xF8 ≤ n && n ≤ 0x2FF) || (0x370 ≤ n && n ≤ 0x37D) || (0x37F ≤ n && n ≤ 0x1FFF) ||
    (0x200C ≤ n && n ≤ 0x200D) || (0x2070 ≤ n && n ≤ 0x218F) || (0x2C00 ≤ n && n ≤ 0x2FEF) ||
    (0x3001 ≤ n && n ≤ 0xD7FF) || (0xF900 ≤ n && n ≤ 0xFDCF) || (0xFDF0 ≤ n && n ≤ 0xFFFD) ||
    (0x10000 ≤ n && n ≤ 0xEFFFF)

def isNamePart (c : Char) : Bool :=
  let n := c.toNat
  isNameStart c || c == '-' || c == '.' || ('0' ≤ c && c ≤ '9') || n == 0xB7 ||
    (0x300 ≤ n && n ≤ 0x36F) || (0x203F ≤ n && n ≤ 0x2040)

def isPublicIdChar (c : Char) : Bool :=
  c == ' ' || c == '\r' || c == '\n' || c.isAlphanum || "-'()+,./:=?;!*#@$_%".toList.contains c

end DtdConformance.Xml
