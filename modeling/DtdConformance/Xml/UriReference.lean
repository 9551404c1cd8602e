/-! # References to resources

The form of the names of namespaces: a scheme, an authority, a path, a query and a fragment, of
which most may be absent. Characters beyond ASCII must be escaped.
-/
namespace DtdConformance.Xml.UriReference
set_option autoImplicit false

def isPlain (c : Char) : Bool := c.isAlphanum || "-._~!$&'()*+,;=".toList.contains c

def isHex (c : Char) : Bool :=
  c.isDigit || ('a' ≤ c && c ≤ 'f') || ('A' ≤ c && c ≤ 'F')

/-- Plain characters, escapes and the extra characters that the part allows. -/
def isPart (extra : List Char) : List Char → Bool
  | [] => true
  | '%' :: a :: b :: rest => isHex a && isHex b && isPart extra rest
  | c :: rest => (isPlain c || extra.contains c) && isPart extra rest

def isScheme : List Char → Bool
  | [] => false
  | c :: rest => c.isAlpha && rest.all (fun c => c.isAlphanum || c == '+' || c == '-' || c == '.')

def isHost (cs : List Char) : Bool :=
  match cs with
  | '[' :: rest =>
    let afterBracket := rest.dropWhile (fun c => c != ']')
    (rest.takeWhile (fun c => c != ']')).all (fun c => isPlain c || c == ':') &&
      match afterBracket with
      | [']'] => true
      | ']' :: ':' :: port => !port.isEmpty && port.all Char.isDigit
      | _ => false
  | _ =>
    isPart [] (cs.takeWhile (fun c => c != ':')) &&
      match cs.dropWhile (fun c => c != ':') with
      | [] => true
      | _ :: port => !port.isEmpty && port.all Char.isDigit

def isAuthority (cs : List Char) : Bool :=
  let user := cs.takeWhile (fun c => c != '@')
  match cs.dropWhile (fun c => c != '@') with
  | [] => isHost cs
  | _ :: host => isPart [':'] user && isHost host

def isHierarchy (cs : List Char) : Bool :=
  match cs with
  | '/' :: '/' :: rest =>
    isAuthority (rest.takeWhile (fun c => c != '/')) &&
      isPart [':', '@', '/'] (rest.dropWhile (fun c => c != '/'))
  | _ => isPart [':', '@', '/'] cs

def isValid (cs : List Char) : Bool :=
  let beforeFragment := cs.takeWhile (fun c => c != '#')
  let fragment := (cs.dropWhile (fun c => c != '#')).drop 1
  let path := beforeFragment.takeWhile (fun c => c != '?')
  let query := (beforeFragment.dropWhile (fun c => c != '?')).drop 1
  let segment := path.takeWhile (fun c => c != '/' && c != ':')
  isPart [':', '@', '/', '?'] fragment && isPart [':', '@', '/', '?'] query &&
    match path.drop segment.length with
    | ':' :: rest => isScheme segment && isHierarchy rest
    | _ => isHierarchy path

end DtdConformance.Xml.UriReference
